import Mathlib.Data.List.GetD
import BootableUefi.Firmware.Status
import BootableUefi.Foundation.Runs
import BootableUefi.Foundation.Strings

/-!
# The log buffer

`log` prints the time stamp, the prefix and the text of a message to a fixed
buffer, one behind the other, and goes back to the beginning of the buffer after
a message that leaves less than a line of room.
-/

namespace BootableUefi
namespace Log

open Firmware Foundation

/-- `LOG_BUF_SIZE`, in bytes. -/
def logBufSize : Nat :=
  10 * 1024

def bufferUnits : Nat :=
  logBufSize / 2

inductive LogLevel where
  | error
  | warning
  | info
  | debug
  | profile
  deriving DecidableEq, Repr

def LogLevel.rank : LogLevel -> Nat
  | error => 0
  | warning => 1
  | info => 2
  | debug => 3
  | profile => 4

/-- The machine, and what `SPrint` and `VSPrint` store of a text, given `StrSize` in bytes. -/
structure LogEnv where
  arch : Arch
  print : Nat -> List UInt16 -> List UInt16

structure Prints (print : Nat -> List UInt16 -> List UInt16) : Prop where
  bounded : forall size text, 2 ≤ size -> (print size text).length ≤ size / 2 - 1
  whole : forall size text, 2 ≤ size -> text.length ≤ size / 2 - 1 -> print size text = text

/-- A call of `SPrint` or `VSPrint`: where to, `StrSize`, and the units written with the NUL. -/
structure Printing where
  place : Nat
  size : Nat
  written : Nat
  deriving DecidableEq, Repr

/-- The variables of the log, and the calls it has made; `buffer` is the memory from there on. -/
structure LogState where
  tag : List UInt16
  lineLen : Nat
  flushToVariable : Bool
  timestamp : Bool
  level : LogLevel
  buffer : Nat -> UInt16
  cur : Nat
  prints : List Printing
  console : List (List UInt16)

def LogState.initial : LogState where
  tag := []
  lineLen := 200
  flushToVariable := false
  timestamp := true
  level := LogLevel.debug
  buffer := fun _ => 0
  cur := 0
  prints := []
  console := []

def storeText (place : Nat) (text : List UInt16) (buffer : Nat -> UInt16) : Nat -> UInt16 :=
  fun i => if i < place then buffer i
    else if i < place + text.length then text.getD (i - place) 0
    else if i = place + text.length then 0
    else buffer i

/-- `sizeof(buffer) - sizeof(CHAR16) * (cur - buffer)`. -/
def sizeLeft (arch : Arch) (cur : Nat) : Nat :=
  arch.uintn (logBufSize + 2 ^ arch.uintnBits - arch.uintn (2 * cur))

/-- `cur += SPrint(cur, ...)`. -/
def LogState.print (env : LogEnv) (text : List UInt16) (s : LogState) : LogState :=
  let size := sizeLeft env.arch s.cur
  let stored := env.print size text
  { s with
    buffer := storeText s.cur stored s.buffer
    cur := s.cur + stored.length
    prints := s.prints ++ [{ place := s.cur, size := size, written := stored.length + 1 }] }

/-- The texts that the three formats of a call stand for. -/
structure LogCall where
  level : LogLevel
  stamp : List UInt16
  pre : List UInt16
  text : List UInt16

/-- The comparison of `log` after a message. -/
def resets (arch : Arch) (lineLen cur : Nat) : Bool :=
  logBufSize ≤ arch.uintn (2 * arch.uintn (cur + lineLen))

def LogState.stringAt (s : LogState) (place : Nat) : List UInt16 :=
  fieldString 0 (field (fun i => s.buffer (place + i)) bufferUnits)

def LogState.printMessage (env : LogEnv) (call : LogCall) (s : LogState) : LogState :=
  let s := if s.timestamp then s.print env call.stamp else s
  (s.print env call.pre).print env call.text

/-- Back to the beginning, if the line after the message might not fit any more. -/
def LogState.wrap (arch : Arch) (s : LogState) : LogState :=
  if resets arch s.lineLen s.cur then { s with cur := 0 } else s

/-- `Print` of the tag and of the message that begins at `start`. -/
def LogState.toConsole (level : LogLevel) (start : Nat) (s : LogState) : LogState :=
  if level.rank ≤ s.level.rank then
    { s with console := s.console ++ [s.tag ++ 0x20 :: s.stringAt start] }
  else
    s

def log (env : LogEnv) (call : LogCall) (s : LogState) : LogState :=
  ((s.printMessage env call).wrap env.arch).toConsole call.level s.cur

def logSetLogtag (tag : Option (List UInt16)) (s : LogState) : EfiStatus × LogState :=
  match tag with
  | none => (EfiStatus.invalidParameter, s)
  | some tag =>
      if 20 ≤ tag.length then
        (EfiStatus.invalidParameter, s)
      else
        (EfiStatus.success, { s with tag := tag })

def logSetLineLen (len : Nat) (s : LogState) : LogState :=
  { s with lineLen := len }

def logSetFlushToVar (b : Bool) (s : LogState) : LogState :=
  { s with flushToVariable := b }

def logSetLoglevel (level : LogLevel) (s : LogState) : LogState :=
  { s with level := level }

def logSetLogtimestamp (b : Bool) (s : LogState) : LogState :=
  { s with timestamp := b }

/-- What `log_save_to_variable` hands to `LibSetVariable`, whose answer is `ret`. -/
def logSaveToVariable (env : LogEnv) (named : Bool) (ret : EfiStatus) (warning : LogCall)
    (s : LogState) : Option (List UInt16) × LogState :=
  if s.flushToVariable && named then
    let data := field s.buffer (env.arch.uintn (2 * s.cur) / 2)
    if efiError ret then
      (some data, log env warning s)
    else
      (some data, s)
  else
    (none, s)

/-!
# Runs
-/

/-- What the loader does with its log; the length of a line stays as it is. -/
inductive LogCommand where
  | log (call : LogCall)
  | setLogtag (tag : Option (List UInt16))
  | setFlushToVar (b : Bool)
  | setLoglevel (level : LogLevel)
  | setLogtimestamp (b : Bool)
  | saveToVariable (named : Bool) (ret : EfiStatus) (warning : LogCall)

def step (env : LogEnv) (s : LogState) : LogCommand -> Option LogState
  | LogCommand.log call => some (log env call s)
  | LogCommand.setLogtag tag => some (logSetLogtag tag s).2
  | LogCommand.setFlushToVar b => some (logSetFlushToVar b s)
  | LogCommand.setLoglevel level => some (logSetLoglevel level s)
  | LogCommand.setLogtimestamp b => some (logSetLogtimestamp b s)
  | LogCommand.saveToVariable named ret warning =>
      some (logSaveToVariable env named ret warning s).2

/-- A run from the state the loader finds, once the length of a line has been set. -/
def RunsTo (env : LogEnv) (lineLen : Nat) (commands : List LogCommand) (s : LogState) : Prop :=
  runFrom (step env) (logSetLineLen lineLen LogState.initial) commands = some s

/-!
# One print
-/

def LogCall.message (call : LogCall) (timestamp : Bool) : List UInt16 :=
  (if timestamp then call.stamp else []) ++ (call.pre ++ call.text)

/-- The text in the buffer up to the pointer. -/
def LogState.kept (s : LogState) : List UInt16 :=
  field s.buffer s.cur

theorem sizeLeft_eq {arch : Arch} {cur : Nat} (hcur : cur < bufferUnits) :
    sizeLeft arch cur = 2 * (bufferUnits - cur) := by
  unfold bufferUnits logBufSize at *
  have hpointer : arch.uintn (2 * cur) = 2 * cur := uintn_of_small (by omega)
  unfold sizeLeft logBufSize
  rw [hpointer]
  cases arch with
  | ia32 =>
      change (10 * 1024 + 2 ^ 32 - 2 * cur) % 2 ^ 32 = _
      omega
  | x64 =>
      change (10 * 1024 + 2 ^ 64 - 2 * cur) % 2 ^ 64 = _
      omega

theorem field_storeText (place : Nat) (text : List UInt16) (buffer : Nat -> UInt16) :
    field (storeText place text buffer) (place + text.length) = field buffer place ++ text := by
  rw [field_add]
  congr 1
  · exact field_congr fun i hi => if_pos hi
  · apply field_eq
    intro i hi
    unfold storeText
    rw [if_neg (by omega), if_pos (by omega), Nat.add_sub_cancel_left,
      List.getD_eq_getElem _ _ hi]

theorem storeText_nul (place : Nat) (text : List UInt16) (buffer : Nat -> UInt16) :
    storeText place text buffer (place + text.length) = 0 := by
  unfold storeText
  rw [if_neg (by omega), if_neg (by omega), if_pos rfl]

structure Appended (s t : LogState) (text : List UInt16) : Prop where
  kept : t.kept = s.kept ++ text
  nul : t.buffer t.cur = 0

section Print

variable {env : LogEnv} {s t u : LogState} {text text' : List UInt16}

theorem length_kept (s : LogState) : s.kept.length = s.cur :=
  length_field _ _

theorem Appended.cur (h : Appended s t text) : t.cur = s.cur + text.length := by
  rw [← length_kept t, h.kept, List.length_append, length_kept]

theorem Appended.trans (h : Appended s t text) (h' : Appended t u text') :
    Appended s u (text ++ text') where
  kept := by rw [h'.kept, h.kept, List.append_assoc]
  nul := h'.nul

theorem print_appended (env : LogEnv) (text : List UInt16) (s : LogState) :
    Appended s (s.print env text) (env.print (sizeLeft env.arch s.cur) text) where
  kept := field_storeText _ _ _
  nul := storeText_nul _ _ _

theorem Appended.stands (h : Appended s t text) :
    field (fun i => t.buffer (s.cur + i)) (text.length + 1) = text ++ [0] := by
  have hkept : field t.buffer (s.cur + text.length) = s.kept ++ text := by
    rw [← h.cur]
    exact h.kept
  have hends := List.append_inj (field_add t.buffer s.cur text.length ▸ hkept)
    ((length_field _ _).trans (length_kept s).symm)
  have hnul : t.buffer (s.cur + text.length) = 0 := h.cur ▸ h.nul
  rw [field_add, hends.2]
  change text ++ [t.buffer (s.cur + (text.length + 0))] = text ++ [0]
  rw [Nat.add_zero, hnul]

structure Printing.Inside (p : Printing) : Prop where
  place : p.place < bufferUnits
  written : p.place + p.written ≤ bufferUnits

/-- The pointer is in the buffer, and so was all that has been printed. -/
structure Contained (s : LogState) : Prop where
  cur : s.cur < bufferUnits
  prints : forall p, p ∈ s.prints -> p.Inside

theorem print_length (hprint : Prints env.print) (hcur : s.cur < bufferUnits)
    (text : List UInt16) :
    s.cur + (env.print (sizeLeft env.arch s.cur) text).length < bufferUnits := by
  have hsize : sizeLeft env.arch s.cur = _ := sizeLeft_eq hcur
  have hbounded := hprint.bounded (sizeLeft env.arch s.cur) text (by omega)
  omega

theorem print_contained (hprint : Prints env.print) (h : Contained s) (text : List UInt16) :
    Contained (s.print env text) where
  cur := print_length hprint h.cur text
  prints := by
    have hroom := print_length hprint h.cur text
    intro p hp
    rcases List.mem_append.mp hp with hold | hnew
    · exact h.prints p hold
    · rw [List.mem_singleton.mp hnew]
      exact ⟨h.cur, hroom⟩

theorem print_whole (hprint : Prints env.print) (hcur : s.cur + text.length < bufferUnits) :
    Appended s (s.print env text) text := by
  have hsize : sizeLeft env.arch s.cur = _ := sizeLeft_eq (by omega)
  have happended := print_appended env text s
  rwa [hprint.whole _ _ (by omega) (by omega)] at happended

end Print

/-!
# One message
-/

section Message

variable {env : LogEnv} {s : LogState} {call : LogCall}

theorem printMessage_contained (hprint : Prints env.print) (h : Contained s)
    (call : LogCall) : Contained (s.printMessage env call) := by
  unfold LogState.printMessage
  dsimp only
  apply print_contained hprint
  apply print_contained hprint
  split
  · exact print_contained hprint h call.stamp
  · exact h

theorem printMessage_whole (hprint : Prints env.print)
    (hroom : s.cur + (call.message s.timestamp).length < bufferUnits) :
    Appended s (s.printMessage env call) (call.message s.timestamp) := by
  unfold LogCall.message at hroom ⊢
  unfold LogState.printMessage
  dsimp only
  cases htimestamp : s.timestamp with
  | false =>
      rw [htimestamp] at hroom
      simp only [Bool.false_eq_true, if_false, List.nil_append, List.length_append]
        at hroom ⊢
      have hpre : Appended s (s.print env call.pre) call.pre :=
        print_whole hprint (by omega)
      have hcur := hpre.cur
      exact hpre.trans (print_whole hprint (by omega))
  | true =>
      rw [htimestamp] at hroom
      simp only [if_true, List.length_append] at hroom ⊢
      have hstamp : Appended s (s.print env call.stamp) call.stamp :=
        print_whole hprint (by omega)
      have hcur := hstamp.cur
      have hpre : Appended (s.print env call.stamp)
          ((s.print env call.stamp).print env call.pre) call.pre :=
        print_whole hprint (by omega)
      have hcur' := hpre.cur
      exact hstamp.trans (hpre.trans (print_whole hprint (by omega)))

theorem printMessage_lineLen (env : LogEnv) (call : LogCall) (s : LogState) :
    (s.printMessage env call).lineLen = s.lineLen := by
  unfold LogState.printMessage
  dsimp only
  split
  · rfl
  · rfl

theorem toConsole_eq (level : LogLevel) (start : Nat) (s : LogState) :
    exists console, s.toConsole level start = { s with console := console } := by
  unfold LogState.toConsole
  split
  · exact ⟨_, rfl⟩
  · exact ⟨s.console, rfl⟩

theorem log_eq (env : LogEnv) (call : LogCall) (s : LogState) :
    exists console, log env call s =
      { (s.printMessage env call).wrap env.arch with console := console } :=
  toConsole_eq call.level s.cur _

theorem wrap_cur (arch : Arch) (s : LogState) :
    (s.wrap arch).cur = if resets arch s.lineLen s.cur then 0 else s.cur := by
  unfold LogState.wrap
  split
  · rfl
  · rfl

theorem wrap_eq (arch : Arch) (s : LogState) :
    s.wrap arch = { s with cur := (s.wrap arch).cur } := by
  unfold LogState.wrap
  split
  · rfl
  · rfl

theorem log_lineLen (env : LogEnv) (call : LogCall) (s : LogState) :
    (log env call s).lineLen = s.lineLen := by
  rcases log_eq env call s with ⟨console, heq⟩
  rw [heq, wrap_eq]
  exact printMessage_lineLen env call s

theorem log_buffer (env : LogEnv) (call : LogCall) (s : LogState) :
    (log env call s).buffer = (s.printMessage env call).buffer := by
  rcases log_eq env call s with ⟨console, heq⟩
  rw [heq, wrap_eq]

theorem log_prints (env : LogEnv) (call : LogCall) (s : LogState) :
    (log env call s).prints = (s.printMessage env call).prints := by
  rcases log_eq env call s with ⟨console, heq⟩
  rw [heq, wrap_eq]

theorem log_cur (env : LogEnv) (call : LogCall) (s : LogState) :
    (log env call s).cur =
      if resets env.arch s.lineLen (s.printMessage env call).cur then 0
      else (s.printMessage env call).cur := by
  rcases log_eq env call s with ⟨console, heq⟩
  rw [heq, ← printMessage_lineLen env call s]
  exact wrap_cur env.arch _

theorem log_contained (hprint : Prints env.print) (h : Contained s) (call : LogCall) :
    Contained (log env call s) where
  cur := by
    rw [log_cur]
    split
    · decide
    · exact (printMessage_contained hprint h call).cur
  prints := by
    rw [log_prints]
    exact (printMessage_contained hprint h call).prints

theorem resets_eq_false_iff {arch : Arch} {lineLen cur : Nat} (hline : lineLen < bufferUnits)
    (hcur : cur < bufferUnits) :
    resets arch lineLen cur = false <-> cur + lineLen < bufferUnits := by
  have hunits : bufferUnits = 5120 := rfl
  have hsum : arch.uintn (cur + lineLen) = cur + lineLen := uintn_of_small (by omega)
  have hbytes : arch.uintn (2 * (cur + lineLen)) = 2 * (cur + lineLen) :=
    uintn_of_small (by omega)
  unfold resets logBufSize
  rw [hsum, hbytes, decide_eq_false_iff_not]
  omega

end Message

/-!
# Runs
-/

section Runs

variable {env : LogEnv} {lineLen : Nat} {commands : List LogCommand} {s t : LogState}

theorem step_cases {command : LogCommand} (h : step env s command = some t) :
    (exists call, t = log env call s) ∨
      (t.lineLen = s.lineLen ∧ t.cur = s.cur ∧ t.prints = s.prints) := by
  cases command with
  | log call =>
      cases h
      exact Or.inl ⟨call, rfl⟩
  | setLogtag tag =>
      cases h
      right
      unfold logSetLogtag
      split
      · exact ⟨rfl, rfl, rfl⟩
      · split
        · exact ⟨rfl, rfl, rfl⟩
        · exact ⟨rfl, rfl, rfl⟩
  | setFlushToVar b =>
      cases h
      exact Or.inr ⟨rfl, rfl, rfl⟩
  | setLoglevel level =>
      cases h
      exact Or.inr ⟨rfl, rfl, rfl⟩
  | setLogtimestamp b =>
      cases h
      exact Or.inr ⟨rfl, rfl, rfl⟩
  | saveToVariable named ret warning =>
      cases h
      unfold logSaveToVariable
      split
      · dsimp only
        split
        · exact Or.inl ⟨warning, rfl⟩
        · exact Or.inr ⟨rfl, rfl, rfl⟩
      · exact Or.inr ⟨rfl, rfl, rfl⟩

theorem step_contained (hprint : Prints env.print) {command : LogCommand} (hs : Contained s)
    (h : step env s command = some t) : Contained t := by
  rcases step_cases h with ⟨call, rfl⟩ | ⟨-, hcur, hprints⟩
  · exact log_contained hprint hs call
  · refine ⟨hcur ▸ hs.cur, ?_⟩
    rw [hprints]
    exact hs.prints

theorem contained_start (lineLen : Nat) :
    Contained (logSetLineLen lineLen LogState.initial) where
  cur := show 0 < bufferUnits by decide
  prints := fun _ hp => absurd hp List.not_mem_nil

theorem run_contained (hprint : Prints env.print) (hrun : RunsTo env lineLen commands s) :
    Contained s := by
  exact invariant_of_run (fun _ _ _ hs h => step_contained hprint hs h)
    (contained_start lineLen) hrun

/-- There is room for a line, and its NUL, whenever a message begins. -/
structure Roomy (lineLen : Nat) (s : LogState) : Prop where
  same : s.lineLen = lineLen
  contained : Contained s
  room : s.cur + lineLen < bufferUnits

theorem step_roomy (hprint : Prints env.print) (hline : lineLen < bufferUnits)
    {command : LogCommand} (hs : Roomy lineLen s) (h : step env s command = some t) :
    Roomy lineLen t where
  same := by
    rw [← hs.same]
    rcases step_cases h with ⟨call, rfl⟩ | ⟨hlength, -, -⟩
    · exact log_lineLen env call s
    · exact hlength
  contained := step_contained hprint hs.contained h
  room := by
    rcases step_cases h with ⟨call, rfl⟩ | ⟨-, hcur, -⟩
    · rw [log_cur, hs.same]
      split
      · rwa [Nat.zero_add]
      · rename_i hstay
        have hinside := (printMessage_contained hprint hs.contained call).cur
        rw [Bool.not_eq_true] at hstay
        exact (resets_eq_false_iff hline hinside).mp hstay
    · rw [hcur]
      exact hs.room

theorem run_roomy (hprint : Prints env.print) (hline : lineLen < bufferUnits)
    (hrun : RunsTo env lineLen commands s) : Roomy lineLen s := by
  apply invariant_of_run (fun _ _ _ hs h => step_roomy hprint hline hs h) ?_ hrun
  refine ⟨rfl, contained_start lineLen, ?_⟩
  change 0 + lineLen < bufferUnits
  rwa [Nat.zero_add]

/-- The message stands in the buffer from where it begins, with its NUL. -/
def StoresWhole (env : LogEnv) (s : LogState) (call : LogCall) : Prop :=
  field (fun i => (log env call s).buffer (s.cur + i))
    ((call.message s.timestamp).length + 1) = call.message s.timestamp ++ [0]

/--
In every run the pointer and the prints stay inside the buffer, and a message of
at most a line is stored whole.
-/
theorem log_contained_run (hprint : Prints env.print) (hline : lineLen < bufferUnits)
    (hrun : RunsTo env lineLen commands s) :
    Contained s ∧ forall call : LogCall, (call.message s.timestamp).length ≤ lineLen ->
      StoresWhole env s call := by
  have hroomy := run_roomy hprint hline hrun
  refine ⟨hroomy.contained, ?_⟩
  intro call hlength
  have hroom := hroomy.room
  have happended := printMessage_whole hprint
    (show s.cur + (call.message s.timestamp).length < bufferUnits by omega)
  unfold StoresWhole
  rw [log_buffer]
  exact happended.stands

end Runs

def frontPrinter (size : Nat) (text : List UInt16) : List UInt16 :=
  text.take (size / 2 - 1)

theorem prints_frontPrinter : Prints frontPrinter where
  bounded := fun _ _ _ => List.length_take_le _ _
  whole := fun _ _ _ h => List.take_of_length_le h

def sampleEnv : LogEnv where
  arch := Arch.x64
  print := frontPrinter

def plain (text : List UInt16) : LogCall where
  level := LogLevel.info
  stamp := []
  pre := []
  text := text

theorem log_contained_run_of_two :
    exists s, RunsTo sampleEnv 100
        [LogCommand.log (plain [0x61]), LogCommand.log (plain [0x62])] s ∧
      Contained s ∧ forall call : LogCall, (call.message s.timestamp).length ≤ 100 ->
        StoresWhole sampleEnv s call := by
  let first := log sampleEnv (plain [0x61]) (logSetLineLen 100 LogState.initial)
  have hrun : RunsTo sampleEnv 100
      [LogCommand.log (plain [0x61]), LogCommand.log (plain [0x62])]
      (log sampleEnv (plain [0x62]) first) := rfl
  exact ⟨_, hrun, log_contained_run prints_frontPrinter (by decide) hrun⟩

end Log
end BootableUefi
