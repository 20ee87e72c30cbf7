import BootableUefi.Efilinux.Main
import BootableUefi.Foundation.Skipping

/-!
# The arguments of efilinux

`parse_args` goes over the load options with a pointer that is compared with the
size of the buffer in bytes, but moves in units of two.  `get_argument` ends a
word by writing over the unit behind it.
-/

namespace BootableUefi
namespace Efilinux

open Firmware Foundation

def unit (c : Char) : UInt16 :=
  UInt16.ofNat c.toNat

def units (text : String) : List UInt16 :=
  text.toList.map unit

/-- Only the low byte is looked at, and NUL is a space too. -/
def isspace (ch : UInt16) : Bool :=
  ch.toUInt8 ≤ 0x20

structure ParseEnv where
  runtimeSettings : Bool
  alloc : Nat -> Bool
  cmdlineAlloc : Bool

def stringAt (text : List UInt16) (n : Nat) : Option (List UInt16) :=
  (skipWhile (fun c => c != 0) (text.drop n) n).map fun last =>
    (text.drop n).take (last - n)

/-- The buffer and the pointer `get_argument` leaves, and the word if it could be copied. -/
structure Word where
  text : List UInt16
  n : Nat
  copy : Option (List UInt16)

/-- `get_argument`; `none` if it touches a unit that is not in the buffer, or in the copy. -/
def getArgument (alloc : Bool) (text : List UInt16) (n : Nat) : Option Word := do
  let word ← skipWhile isspace (text.drop n) n
  let last ← skipWhile (fun c => c != 0 && !isspace c) (text.drop word) word
  let text := text.set last 0
  if alloc then
    let copy ← stringAt text word
    -- the copy has room for as many units as were counted, and a NUL
    if copy.length ≤ last - word then
      some { text := text, n := last + 1, copy := some copy }
    else
      none
  else
    some { text := text, n := last + 1, copy := none }

/-!
# The loop of parse_args
-/

inductive Switch where
  | usage
  | fail
  | argument
  | policy
  | noJump
  deriving DecidableEq

def switchAt (runtimeSettings : Bool) (ch : UInt16) : Switch :=
  if ch = unit 'h' then Switch.usage
  else if ch = unit 'a' then Switch.argument
  else if runtimeSettings then
    if ch = unit 'l' ∨ ch = unit 'm' ∨ ch = unit 'A' then Switch.fail
    else if ch = unit 'f' ∨ ch = unit 'p' ∨ ch = unit 't' ∨ ch = unit 'c' then Switch.argument
    else if ch = unit 'e' then Switch.policy
    else if ch = unit 'n' then Switch.noJump
    else Switch.usage
  else
    Switch.usage

def emSetPolicy (name : List UInt16) : EfiStatus :=
  if name = units "uefi" then EfiStatus.success
  else if name = units "fake" then EfiStatus.success
  else EfiStatus.invalidParameter

/-- The buffer, the pointer, the outputs, and the calls of `get_argument` so far. -/
structure ParseState where
  text : List UInt16
  n : Nat
  type : UInt16
  name : Option (List UInt16)
  calls : Nat

structure Parsed where
  result : ParseResult
  type : UInt16
  name : Option (List UInt16)

def ParseState.parsed (s : ParseState) (result : ParseResult) : Parsed where
  result := result
  type := s.type
  name := s.name

inductive Turn where
  | again (s : ParseState)
  | returns (parsed : Parsed)
  | outside

def ParseState.behind (s : ParseState) (word : Word) : ParseState :=
  { s with text := word.text, n := word.n, calls := s.calls + 1 }

/-- The state behind the argument of a switch; without memory the name is left as it was. -/
def ParseState.takes (s : ParseState) (letter : UInt16) (word : Word) : ParseState :=
  { s.behind word with type := letter, name := word.copy.orElse fun _ => s.name }

/-- The case `'a'`, with the pointer at the letter. -/
def argumentTurn (env : ParseEnv) (letter : UInt16) (s : ParseState) : Turn :=
  match getArgument (env.alloc s.calls) s.text (s.n + 1) with
  | none => Turn.outside
  | some word =>
      let s := s.takes letter word
      if s.name.isNone then Turn.returns (s.parsed ParseResult.usage)
      else Turn.again s

/-- The case `'e'`: the pointer to the copy is read even if there is none. -/
def policyTurn (env : ParseEnv) (s : ParseState) : Turn :=
  match getArgument (env.alloc s.calls) s.text (s.n + 1) with
  | none => Turn.outside
  | some word =>
      match word.copy with
      | none => Turn.outside
      | some [] => Turn.returns ((s.behind word).parsed ParseResult.usage)
      | some policy =>
          if efiError (emSetPolicy policy) then
            Turn.returns ((s.behind word).parsed ParseResult.usage)
          else
            Turn.again (s.behind word)

def switchCase (env : ParseEnv) (letter : UInt16) (s : ParseState) : Switch -> Turn
  | Switch.usage => Turn.returns (s.parsed ParseResult.usage)
  | Switch.fail => Turn.returns (s.parsed ParseResult.usage)
  | Switch.argument => argumentTurn env letter s
  | Switch.policy => policyTurn env s
  -- the pointer stays at the letter
  | Switch.noJump => Turn.again s

def switchTurn (env : ParseEnv) (s : ParseState) : Turn :=
  match s.text[s.n]? with
  | none => Turn.outside
  | some ch => switchCase env ch s (switchAt env.runtimeSettings ch)

def cmdlineTurn (env : ParseEnv) (s : ParseState) : Turn :=
  match stringAt s.text s.n with
  | none => Turn.outside
  | some cmdline =>
      if env.cmdlineAlloc then
        Turn.returns (s.parsed (ParseResult.accepted (some (cmdline.map UInt16.toUInt8))))
      else
        Turn.returns (s.parsed (ParseResult.failed EfiStatus.outOfResources))

def parseTurn (env : ParseEnv) (s : ParseState) : Turn :=
  match s.text[s.n]? with
  | none => Turn.outside
  | some ch =>
      if ch = unit '-' then switchTurn env { s with n := s.n + 1 }
      else cmdlineTurn env s

inductive ParseEnd where
  | returns (parsed : Parsed)
  | outside

/-- `while (n <= &options[size])`. -/
def parseLoop (env : ParseEnv) (size : Nat) : Nat -> ParseState -> Option ParseEnd
  | 0, _ => none
  | fuel + 1, s =>
      if s.n ≤ size then
        match parseTurn env s with
        | Turn.again s => parseLoop env size fuel s
        | Turn.returns parsed => some (ParseEnd.returns parsed)
        | Turn.outside => some ParseEnd.outside
      else
        some (ParseEnd.returns (s.parsed (ParseResult.accepted none)))

/-- `parse_args`, with `*type` as `efi_main` sets it; the fuel bounds the turns of its loop. -/
def parseArgs (env : ParseEnv) (fuel : Nat) (options : List UInt16) (size : Nat) :
    Option ParseEnd :=
  match skipBelow isspace size options 0 with
  | none => some ParseEnd.outside
  | some i =>
      let s : ParseState := { text := options, n := i, type := 0, name := none, calls := 0 }
      if i = size then some (ParseEnd.returns (s.parsed (ParseResult.accepted none)))
      else parseLoop env size fuel s

/-- What `efi_main` passes on of the load options: the first word is skipped. -/
def skipName (options : List UInt16) (size : Nat) : Option (List UInt16 × Nat) :=
  (skipBelow (fun c => c != unit ' ') size options 0).map fun i => (options.drop i, size - i)

/-!
# Arguments that fit
-/

/-- A switch with its argument: spaces, a word, and the space that ends it. -/
structure Argument where
  letter : UInt16
  gap : List UInt16
  word : List UInt16
  last : UInt16
  gap_spaces : forall c, c ∈ gap -> isspace c = true
  word_ne_nil : word ≠ []
  word_units : forall c, c ∈ word -> isspace c = false
  last_space : isspace last = true

def Argument.before (a : Argument) (rest : List UInt16) : List UInt16 :=
  unit '-' :: a.letter :: (a.gap ++ (a.word ++ a.last :: rest))

theorem ne_zero_of_isspace {c : UInt16} (hc : isspace c = false) : c ≠ 0 := by
  rintro rfl
  cases hc

theorem word_unit {c : UInt16} (hc : isspace c = false) : (c != 0 && !isspace c) = true := by
  rw [hc, bne_iff_ne.mpr (ne_zero_of_isspace hc)]
  rfl

theorem not_word_unit {c : UInt16} (hc : isspace c = true) :
    (c != 0 && !isspace c) = false := by
  rw [hc]
  exact Bool.and_false _

theorem drop_set_behind {text front back : List UInt16} {c : UInt16} {n : Nat}
    (htext : text.drop n = front ++ c :: back) (d : UInt16) :
    (text.set (n + front.length) d).drop n = front ++ d :: back := by
  rw [List.drop_set, if_neg (by omega), htext, Nat.add_sub_cancel_left,
    List.set_append_right _ _ (Nat.le_refl _), Nat.sub_self]
  rfl

theorem drop_behind {text front back : List UInt16} {c : UInt16} {n : Nat}
    (htext : text.drop n = front ++ c :: back) :
    text.drop (n + front.length + 1) = back := by
  rw [Nat.add_assoc, ← List.drop_drop, htext, ← List.drop_drop, List.drop_left]
  rfl

theorem stringAt_eq {text front back : List UInt16} {n : Nat}
    (htext : text.drop n = front ++ 0 :: back) (hfront : 0 ∉ front) :
    stringAt text n = some front := by
  have hrun : forall c, c ∈ front -> (c != 0) = true := by
    intro c hc
    rw [bne_iff_ne]
    rintro rfl
    exact hfront hc
  unfold stringAt
  rw [htext, skipWhile_append hrun rfl, Option.map_some, Nat.add_sub_cancel_left,
    List.take_left]

theorem Argument.skip_gap (a : Argument) (rest : List UInt16) (n : Nat) :
    skipWhile isspace (a.gap ++ (a.word ++ a.last :: rest)) n = some (n + a.gap.length) := by
  cases hword : a.word with
  | nil => exact absurd hword a.word_ne_nil
  | cons c word =>
      have hc : isspace c = false := a.word_units c (by rw [hword]; exact List.mem_cons_self ..)
      exact skipWhile_append a.gap_spaces hc (word ++ a.last :: rest) n

/-- What `get_argument` leaves of an argument: the pointer behind it, and a copy of its word. -/
structure Argument.Gives (a : Argument) (alloc : Bool) (length : Nat) (rest : List UInt16)
    (word : Word) : Prop where
  rest : word.text.drop word.n = rest
  below : word.n ≤ word.text.length
  length : word.text.length = length
  copy : word.copy = if alloc then some a.word else none

theorem getArgument_eq {text rest : List UInt16} {n : Nat} (a : Argument)
    (htext : text.drop n = a.gap ++ (a.word ++ a.last :: rest)) (alloc : Bool) :
    exists word, getArgument alloc text n = some word ∧
      a.Gives alloc text.length rest word := by
  let start := n + a.gap.length
  let last := start + a.word.length
  have hword : text.drop start = a.word ++ a.last :: rest := by
    rw [← List.drop_drop, htext, List.drop_left]
  have hlast : skipWhile (fun c => c != 0 && !isspace c) (text.drop start) start = some last := by
    rw [hword]
    exact skipWhile_append (fun c hc => word_unit (a.word_units c hc))
      (not_word_unit a.last_space) rest start
  have hset : (text.set last 0).drop start = a.word ++ 0 :: rest := drop_set_behind hword 0
  have hcopy : stringAt (text.set last 0) start = some a.word :=
    stringAt_eq hset fun h0 => ne_zero_of_isspace (a.word_units 0 h0) rfl
  have hroom : a.word.length ≤ last - start := by omega
  have hbehind : (text.set last 0).drop (last + 1) = rest := drop_behind hset
  have hlength : last + 1 ≤ (text.set last 0).length := by
    have h := congrArg List.length hset
    rw [List.length_drop, List.length_append, List.length_cons] at h
    omega
  refine ⟨⟨text.set last 0, last + 1, if alloc then some a.word else none⟩, ?_,
    ⟨hbehind, hlength, List.length_set, rfl⟩⟩
  unfold getArgument
  rw [htext, a.skip_gap rest n, Option.bind_eq_bind, Option.bind_some]
  change (skipWhile _ (text.drop start) start).bind _ = _
  rw [hlast, Option.bind_some]
  cases alloc with
  | false => rfl
  | true =>
      dsimp only
      rw [if_pos rfl, hcopy, Option.bind_eq_bind, Option.bind_some, if_pos hroom]
      rfl

theorem getArgument_argument {alloc : Bool} {text : List UInt16} {n : Nat} {word : Word}
    (h : getArgument alloc text n = some word) (letter : UInt16) :
    exists (a : Argument) (rest : List UInt16), a.letter = letter ∧
      text.drop n = a.gap ++ (a.word ++ a.last :: rest) ∧
      a.Gives alloc text.length rest word := by
  have hgives := h
  unfold getArgument at h
  rw [Option.bind_eq_bind, Option.bind_eq_some_iff] at h
  rcases h with ⟨start, hgap, h⟩
  rw [Option.bind_eq_bind, Option.bind_eq_some_iff] at h
  rcases h with ⟨last, hlast, -⟩
  rcases skipWhile_eq_some hgap with ⟨gap, c, tail, htext, hspaces, hc, rfl⟩
  have hdrop : text.drop (n + gap.length) = c :: tail := by
    rw [← List.drop_drop, htext, List.drop_left]
  rw [hdrop] at hlast
  rcases skipWhile_eq_some hlast with ⟨run, d, rest, hrun, hunits, hd, -⟩
  have hword : forall x, x ∈ run -> isspace x = false := by
    intro x hx
    have hunit := hunits x hx
    rw [Bool.and_eq_true, Bool.not_eq_true'] at hunit
    exact hunit.2
  have hstop : isspace d = true := by
    cases hspace : isspace d with
    | true => rfl
    | false =>
        rw [word_unit hspace] at hd
        cases hd
  have hne : run ≠ [] := by
    rintro rfl
    rw [List.nil_append, List.cons.injEq] at hrun
    rw [← hrun.1, hc] at hstop
    cases hstop
  let a : Argument := ⟨letter, gap, run, d, hspaces, hne, hword, hstop⟩
  have hargument : text.drop n = a.gap ++ (a.word ++ a.last :: rest) := by
    rw [htext, hrun]
  rcases getArgument_eq a hargument alloc with ⟨word', heq, hword'⟩
  rw [hgives] at heq
  cases heq
  exact ⟨a, rest, rfl, hargument, hword'⟩

/-!
# Texts that fit
-/

/--
How a text can be parsed without leaving it, from the unit on that the pointer
has come to: with or without a name so far, and after so many calls of
`get_argument`.
-/
inductive Fits (env : ParseEnv) : Bool -> Nat -> List UInt16 -> Prop where
  | cmdline {named : Bool} {calls : Nat} {c : UInt16} {rest : List UInt16}
      (hfirst : c ≠ unit '-') (hnul : 0 ∈ c :: rest) :
      Fits env named calls (c :: rest)
  | usage {named : Bool} {calls : Nat} {c : UInt16} {rest : List UInt16}
      (hswitch : switchAt env.runtimeSettings c = Switch.usage ∨
        switchAt env.runtimeSettings c = Switch.fail) :
      Fits env named calls (unit '-' :: c :: rest)
  /-- The letter of this switch begins the command line. -/
  | noJump {named : Bool} {calls : Nat} {c : UInt16} {rest : List UInt16}
      (hswitch : switchAt env.runtimeSettings c = Switch.noJump) (hnul : 0 ∈ rest) :
      Fits env named calls (unit '-' :: c :: rest)
  | argument {named : Bool} {calls : Nat} {a : Argument} {rest : List UInt16}
      (hswitch : switchAt env.runtimeSettings a.letter = Switch.argument)
      (hnamed : env.alloc calls = true ∨ named = true)
      (hrest : Fits env true (calls + 1) rest) :
      Fits env named calls (a.before rest)
  /-- There is no memory for the first argument. -/
  | unnamed {calls : Nat} {a : Argument} {rest : List UInt16}
      (hswitch : switchAt env.runtimeSettings a.letter = Switch.argument)
      (halloc : env.alloc calls = false) :
      Fits env false calls (a.before rest)
  | policy {named : Bool} {calls : Nat} {a : Argument} {rest : List UInt16}
      (hswitch : switchAt env.runtimeSettings a.letter = Switch.policy)
      (halloc : env.alloc calls = true) (hpolicy : emSetPolicy a.word = EfiStatus.success)
      (hrest : Fits env named (calls + 1) rest) :
      Fits env named calls (a.before rest)
  | badPolicy {named : Bool} {calls : Nat} {a : Argument} {rest : List UInt16}
      (hswitch : switchAt env.runtimeSettings a.letter = Switch.policy)
      (halloc : env.alloc calls = true) (hpolicy : emSetPolicy a.word ≠ EfiStatus.success) :
      Fits env named calls (a.before rest)

end Efilinux
end BootableUefi
