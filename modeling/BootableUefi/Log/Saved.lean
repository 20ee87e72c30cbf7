import BootableUefi.Log.Buffer

/-!
# The log that is saved

`log_save_to_variable` saves the buffer up to the pointer.  Where the pointer has
gone back to the beginning, the message before it is not saved.
-/

namespace BootableUefi
namespace Log

open Firmware Foundation

/-- What is saved after a call, once flushing is enabled. -/
def savedAfter (env : LogEnv) (call : LogCall) (ret : EfiStatus) (warning : LogCall)
    (s : LogState) : Option (List UInt16) :=
  (logSaveToVariable env true ret warning (logSetFlushToVar true (log env call s))).1

/-- Whatever a message of `n` units says, what is saved after it ends with it. -/
def KeepsLast (env : LogEnv) (s : LogState) (n : Nat) : Prop :=
  forall call : LogCall, (call.message s.timestamp).length = n ->
    forall ret warning, exists data, savedAfter env call ret warning s = some data ∧
      call.message s.timestamp <:+ data

structure Survives (arch : Arch) (s : LogState) (n : Nat) : Prop where
  fits : s.cur + n < bufferUnits
  stays : resets arch s.lineLen (s.cur + n) = false

section Save

variable {env : LogEnv} {s : LogState} {call : LogCall}

theorem log_kept (env : LogEnv) (call : LogCall) (s : LogState) :
    (log env call s).kept =
      if resets env.arch s.lineLen (s.printMessage env call).cur then []
      else (s.printMessage env call).kept := by
  unfold LogState.kept
  rw [log_buffer, log_cur]
  split
  · rfl
  · rfl

theorem savedAfter_field (env : LogEnv) (call : LogCall) (ret : EfiStatus) (warning : LogCall)
    (s : LogState) :
    savedAfter env call ret warning s =
      some (field (log env call s).buffer (env.arch.uintn (2 * (log env call s).cur) / 2)) := by
  unfold savedAfter logSaveToVariable logSetFlushToVar
  dsimp only
  rw [Bool.and_self, if_pos rfl]
  split
  · rfl
  · rfl

theorem savedAfter_eq (hprint : Prints env.print) (hs : Contained s) (call : LogCall)
    (ret : EfiStatus) (warning : LogCall) :
    savedAfter env call ret warning s = some (log env call s).kept := by
  have hcur := (log_contained hprint hs call).cur
  have hunits : bufferUnits = 5120 := rfl
  have hsize : env.arch.uintn (2 * (log env call s).cur) / 2 = (log env call s).cur := by
    rw [uintn_of_small (by omega)]
    omega
  rw [savedAfter_field, hsize]
  rfl

theorem savedAfter_of_resets (hprint : Prints env.print) (hs : Contained s)
    (hreset : resets env.arch s.lineLen (s.printMessage env call).cur = true)
    (ret : EfiStatus) (warning : LogCall) : savedAfter env call ret warning s = some [] := by
  rw [savedAfter_eq hprint hs, log_kept, if_pos hreset]

theorem savedAfter_of_survives (hprint : Prints env.print) (hs : Contained s)
    (h : Survives env.arch s (call.message s.timestamp).length) (ret : EfiStatus)
    (warning : LogCall) :
    savedAfter env call ret warning s = some (s.kept ++ call.message s.timestamp) := by
  have happended := printMessage_whole hprint h.fits
  have hstays := h.stays
  rw [← happended.cur] at hstays
  rw [savedAfter_eq hprint hs, log_kept, if_neg (by rw [hstays]; exact Bool.false_ne_true),
    happended.kept]

/-!
# Messages that are cut
-/

theorem message_plain (text : List UInt16) (timestamp : Bool) :
    (plain text).message timestamp = text := by
  cases timestamp with
  | false => rfl
  | true => rfl

theorem printMessage_plain (hprint : Prints env.print)
    (hfront : forall size text, env.print size text <+: text) (hs : Contained s)
    (text : List UInt16) :
    exists stored, stored <+: text ∧ s.cur + stored.length < bufferUnits ∧
      Appended s (s.printMessage env (plain text)) stored := by
  have hempty : forall t : LogState, t.cur < bufferUnits -> Appended t (t.print env []) [] :=
    fun t ht => print_whole hprint ht
  have hlast : forall t : LogState, Appended s t [] ->
      exists stored, stored <+: text ∧ s.cur + stored.length < bufferUnits ∧
        Appended s (t.print env text) stored := by
    intro t ht
    have hcur : t.cur = s.cur := ht.cur
    have hinside : t.cur < bufferUnits := hcur ▸ hs.cur
    have hlength := print_length hprint hinside text
    rw [hcur] at hlength
    refine ⟨_, hfront (sizeLeft env.arch s.cur) text, hlength, ?_⟩
    have happended := ht.trans (print_appended env text t)
    rwa [List.nil_append, hcur] at happended
  unfold LogState.printMessage plain
  dsimp only
  split
  · have hstamp := hempty s hs.cur
    have hpre := hempty (s.print env []) (hstamp.cur ▸ hs.cur)
    exact hlast _ (hstamp.trans hpre)
  · exact hlast _ (hempty s hs.cur)

theorem getLast_of_suffix {front list : List UInt16} {b : UInt16} (h : front ++ [b] <:+ list) :
    list.getLast? = some b := by
  rcases h with ⟨rest, rfl⟩
  rw [← List.append_assoc, List.getLast?_concat]

theorem exists_text_lost (kept : List UInt16) {n : Nat} (hn : 0 < n) :
    exists text : List UInt16, text.length = n ∧ forall stored : List UInt16,
      stored <+: text -> stored.length < n -> ¬ text <:+ kept ++ stored := by
  have hother : exists b : UInt16, b ≠ 1 ∧ kept.getLast? ≠ some b := by
    by_cases htwo : kept.getLast? = some 2
    · refine ⟨3, by decide, ?_⟩
      rw [htwo]
      decide
    · exact ⟨2, by decide, htwo⟩
  rcases hother with ⟨b, hb, hlast⟩
  have hlength : (List.replicate (n - 1) (1 : UInt16)).length = n - 1 := List.length_replicate
  refine ⟨List.replicate (n - 1) 1 ++ [b], ?_, ?_⟩
  · rw [List.length_append, List.length_singleton, hlength]
    omega
  · intro stored hstored hcut hends
    have hgiven := getLast_of_suffix hends
    have hones : stored <+: List.replicate (n - 1) 1 :=
      List.prefix_of_prefix_length_le hstored (List.prefix_append _ _) (by omega)
    rcases List.eq_nil_or_concat stored with rfl | ⟨rest, x, rfl⟩
    · rw [List.append_nil] at hgiven
      exact hlast hgiven
    · rw [List.concat_eq_append] at hones hgiven
      rw [← List.append_assoc, List.getLast?_concat, Option.some_inj] at hgiven
      have hmem : x ∈ List.replicate (n - 1) (1 : UInt16) :=
        hones.subset (List.mem_append_right rest (List.mem_singleton_self x))
      exact hb (hgiven.symm.trans (List.eq_of_mem_replicate hmem))

end Save

/-!
# The last message
-/

section Last

variable {env : LogEnv} {lineLen : Nat} {commands : List LogCommand} {s : LogState}

theorem not_keepsLast (hprint : Prints env.print)
    (hfront : forall size text, env.print size text <+: text) (hs : Contained s) {n : Nat}
    (hn : 0 < n) (hlost : ¬ Survives env.arch s n) : ¬ KeepsLast env s n := by
  intro hkeeps
  rcases exists_text_lost s.kept hn with ⟨text, hlength, htext⟩
  rcases hkeeps (plain text) (by rw [message_plain, hlength]) EfiStatus.success (plain []) with
    ⟨data, hsaved, hends⟩
  rw [message_plain] at hends
  rcases printMessage_plain hprint hfront hs text with ⟨stored, hstored, hroom, happended⟩
  rw [savedAfter_eq hprint hs, log_kept, Option.some_inj] at hsaved
  cases hreset : resets env.arch s.lineLen (s.printMessage env (plain text)).cur with
  | true =>
      rw [if_pos hreset] at hsaved
      rw [← hsaved, List.suffix_nil] at hends
      rw [hends] at hlength
      exact absurd hlength (Nat.ne_of_lt hn)
  | false =>
      rw [if_neg (by rw [hreset]; exact Bool.false_ne_true), happended.kept] at hsaved
      rw [← hsaved] at hends
      refine htext stored hstored ?_ hends
      -- A message that is stored whole would survive.
      by_contra hwhole
      have hle := hstored.length_le
      have hcur : (s.printMessage env (plain text)).cur = s.cur + n := by
        rw [happended.cur]
        omega
      rw [hcur] at hreset
      exact hlost ⟨by omega, hreset⟩

theorem savedAfter_endsWith_iff (hprint : Prints env.print) (hline : lineLen < bufferUnits)
    (hrun : RunsTo env lineLen commands s) {call : LogCall}
    (hlength : (call.message s.timestamp).length ≤ lineLen) (ret : EfiStatus)
    (warning : LogCall) :
    (exists data, savedAfter env call ret warning s = some data ∧
        call.message s.timestamp <:+ data) <->
      call.message s.timestamp = [] ∨
        s.cur + (call.message s.timestamp).length + lineLen < bufferUnits := by
  have hroomy := run_roomy hprint hline hrun
  have hroom := hroomy.room
  have hfits : s.cur + (call.message s.timestamp).length < bufferUnits := by omega
  have hstays : resets env.arch lineLen _ = false <-> _ := resets_eq_false_iff hline hfits
  constructor
  · rintro ⟨data, hdata, hends⟩
    by_contra hlost
    rw [not_or] at hlost
    have hreset : resets env.arch s.lineLen (s.printMessage env call).cur = true := by
      rw [hroomy.same, (printMessage_whole hprint hfits).cur]
      exact Bool.eq_true_of_not_eq_false fun h => hlost.2 (hstays.mp h)
    rw [savedAfter_of_resets hprint hroomy.contained hreset, Option.some_inj] at hdata
    rw [← hdata, List.suffix_nil] at hends
    exact hlost.1 hends
  · rintro (hempty | hstay)
    · rw [hempty]
      exact ⟨_, savedAfter_eq hprint hroomy.contained call ret warning, List.nil_suffix⟩
    · have hsurvives : Survives env.arch s (call.message s.timestamp).length :=
        ⟨hfits, by rw [hroomy.same]; exact hstays.mpr hstay⟩
      exact ⟨_, savedAfter_of_survives hprint hroomy.contained hsurvives ret warning,
        List.suffix_append _ _⟩

/--
In every run, what is saved after a message ends with it exactly if the message
says nothing, or fits and leaves the room of a line.
-/
theorem savedAfter_keepsLast_iff (hprint : Prints env.print)
    (hfront : forall size text, env.print size text <+: text)
    (hrun : RunsTo env lineLen commands s) (n : Nat) :
    KeepsLast env s n <-> n = 0 ∨ Survives env.arch s n := by
  have hs := run_contained hprint hrun
  constructor
  · intro hkeeps
    by_contra hlost
    rw [not_or] at hlost
    exact not_keepsLast hprint hfront hs (Nat.pos_of_ne_zero hlost.1) hlost.2 hkeeps
  · intro hsaved call hlength ret warning
    rcases hsaved with rfl | hsurvives
    · rw [List.eq_nil_of_length_eq_zero hlength]
      exact ⟨_, savedAfter_eq hprint hs call ret warning, List.nil_suffix⟩
    · rw [← hlength] at hsurvives
      exact ⟨_, savedAfter_of_survives hprint hs hsurvives ret warning, List.suffix_append _ _⟩

end Last

theorem frontPrinter_front (size : Nat) (text : List UInt16) : frontPrinter size text <+: text :=
  List.take_prefix _ _

theorem savedAfter_keepsLast_iff_of_one :
    exists s, RunsTo sampleEnv 100 [LogCommand.log (plain [0x61])] s ∧
      (KeepsLast sampleEnv s 100 <-> 100 = 0 ∨ Survives sampleEnv.arch s 100) := by
  have hrun : RunsTo sampleEnv 100 [LogCommand.log (plain [0x61])]
      (log sampleEnv (plain [0x61]) (logSetLineLen 100 LogState.initial)) := rfl
  exact ⟨_, hrun, savedAfter_keepsLast_iff prints_frontPrinter frontPrinter_front hrun 100⟩

theorem printMessage_line {env : LogEnv} (hprint : Prints env.print) {s : LogState}
    {text : List UInt16} (hroom : s.cur + text.length < bufferUnits) :
    Appended s (s.printMessage env (plain text)) text := by
  have hfits : s.cur + ((plain text).message s.timestamp).length < bufferUnits := by
    rwa [message_plain]
  have happended := printMessage_whole hprint hfits
  rwa [message_plain] at happended

theorem runsTo_lines {env : LogEnv} (hprint : Prints env.print) {lineLen : Nat}
    (hline : lineLen < bufferUnits) (text : List UInt16) {k : Nat}
    (hroom : k * text.length + lineLen < bufferUnits) :
    exists s, RunsTo env lineLen (List.replicate k (LogCommand.log (plain text))) s ∧
      s.cur = k * text.length := by
  induction k with
  | zero => exact ⟨_, rfl, (Nat.zero_mul _).symm⟩
  | succ k ih =>
      rw [Nat.add_mul, Nat.one_mul] at hroom
      rcases ih (by omega) with ⟨s, hrun, hcur⟩
      have hroomy := run_roomy hprint hline hrun
      have hwhole : Appended s (s.printMessage env (plain text)) text :=
        printMessage_line hprint (by omega)
      refine ⟨log env (plain text) s, ?_, ?_⟩
      · unfold RunsTo at hrun ⊢
        rw [List.replicate_succ', runFrom_append, hrun]
        rfl
      · have hstays : resets env.arch lineLen (s.printMessage env (plain text)).cur = false := by
          have hnext := hwhole.cur
          rw [resets_eq_false_iff hline (by omega)]
          omega
        rw [log_cur, hroomy.same, hstays, hwhole.cur, hcur, Nat.add_mul, Nat.one_mul]
        rfl

def sampleLine : List UInt16 :=
  List.replicate 100 0x61

/-- The 51st line of 100 units, the length of a line that the loader sets: nothing is saved. -/
theorem savedAfter_lost :
    exists s, RunsTo sampleEnv 100 (List.replicate 50 (LogCommand.log (plain sampleLine))) s ∧
      savedAfter sampleEnv (plain sampleLine) EfiStatus.success (plain []) s = some [] ∧
      ¬ KeepsLast sampleEnv s sampleLine.length := by
  have hlength : sampleLine.length = 100 := List.length_replicate
  have hunits : bufferUnits = 5120 := rfl
  have hroom : 50 * sampleLine.length + 100 < bufferUnits := by omega
  have hprint : Prints sampleEnv.print := prints_frontPrinter
  rcases runsTo_lines hprint (by decide) sampleLine hroom with ⟨s, hrun, hcur⟩
  have hroomy := run_roomy hprint (by decide) hrun
  have hwhole : Appended s (s.printMessage sampleEnv (plain sampleLine)) sampleLine :=
    printMessage_line hprint (by omega)
  have hreset : resets sampleEnv.arch s.lineLen
      (s.printMessage sampleEnv (plain sampleLine)).cur = true := by
    rw [hroomy.same, hwhole.cur, hcur, hlength]
    decide
  have hsaved := savedAfter_of_resets hprint hroomy.contained hreset EfiStatus.success (plain [])
  refine ⟨s, hrun, hsaved, ?_⟩
  intro hkeeps
  rcases hkeeps (plain sampleLine) (by rw [message_plain]) EfiStatus.success (plain []) with
    ⟨data, hdata, hends⟩
  rw [hsaved, Option.some_inj] at hdata
  rw [message_plain, ← hdata, List.suffix_nil] at hends
  rw [hends] at hlength
  cases hlength

end Log
end BootableUefi
