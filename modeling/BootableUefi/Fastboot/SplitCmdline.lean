import Mathlib.Logic.Function.Basic
import BootableUefi.Foundation.Words

/-!
# Splitting the command line

`split_cmdline` cuts the load options into arguments in place: it stores where
each word begins and ends it by writing over the space that follows.
-/

namespace BootableUefi
namespace Fastboot

open Foundation

/-- What the scan has written; pointers are counted in units from `cmdline` on. -/
structure Scan where
  line : Nat -> UInt16
  args : Nat -> Nat
  ntok : Nat
  inw : Bool

def space : UInt16 :=
  0x20

def scanUnit (s : Nat) (scan : Scan) : Scan :=
  if scan.inw then
    if scan.line s = space then
      { scan with inw := false, line := Function.update scan.line s 0 }
    else
      scan
  else if scan.line s ≠ space then
    { scan with args := Function.update scan.args scan.ntok s,
                ntok := scan.ntok + 1, inw := true }
  else
    scan

/-- The loop; the fuel bounds the units it looks at. -/
def scanLine (maxToken : Nat) : Nat -> Nat -> Scan -> Option Scan
  | 0, _, _ => none
  | fuel + 1, s, scan =>
      if scan.line s ≠ 0 ∧ (scan.inw = true ∨ scan.ntok < maxToken) then
        scanLine maxToken fuel (s + 1) (scanUnit s scan)
      else
        some scan

def splitCmdline (fuel : Nat) (line : Nat -> UInt16) (maxToken : Nat) (args : Nat -> Nat) :
    Option Scan :=
  scanLine maxToken fuel 0
    { line := line, args := args, ntok := 0, inw := decide (line 0 = space) }

/-!
# The turns of the loop
-/

section Turns

variable {maxToken fuel s : Nat} {scan : Scan}

theorem scanLine_nul (hunit : scan.line s = 0) :
    scanLine maxToken (fuel + 1) s scan = some scan := by
  rw [scanLine, if_neg fun h => h.1 hunit]

theorem scanLine_full (hout : scan.inw = false) (hfull : maxToken ≤ scan.ntok) :
    scanLine maxToken (fuel + 1) s scan = some scan := by
  rw [scanLine, if_neg]
  rintro ⟨-, hinw | hroom⟩
  · rw [hout] at hinw
    cases hinw
  · omega

theorem scanLine_space (hout : scan.inw = false) (hroom : scan.ntok < maxToken)
    (hunit : scan.line s = space) :
    scanLine maxToken (fuel + 1) s scan = scanLine maxToken fuel (s + 1) scan := by
  have hne : scan.line s ≠ 0 := by
    rw [hunit]
    decide
  have hturn : scanUnit s scan = scan := by
    simp [scanUnit, hout, hunit]
  rw [scanLine, if_pos ⟨hne, Or.inr hroom⟩, hturn]

/-- The scan inside the word that begins at `s`. -/
def Scan.enter (scan : Scan) (s : Nat) : Scan :=
  { scan with args := Function.update scan.args scan.ntok s,
              ntok := scan.ntok + 1, inw := true }

theorem scanLine_enter (hout : scan.inw = false) (hroom : scan.ntok < maxToken)
    (hne : scan.line s ≠ 0) (hunit : scan.line s ≠ space) :
    scanLine maxToken (fuel + 1) s scan =
      scanLine maxToken fuel (s + 1) (scan.enter s) := by
  have hturn : scanUnit s scan = scan.enter s := by
    simp [scanUnit, Scan.enter, hout, hunit]
  rw [scanLine, if_pos ⟨hne, Or.inr hroom⟩, hturn]

/-- The scan after the word that ends at `s`. -/
def Scan.leave (scan : Scan) (s : Nat) : Scan :=
  { scan with inw := false, line := Function.update scan.line s 0 }

theorem scanLine_leave (hin : scan.inw = true) (hunit : scan.line s = space) :
    scanLine maxToken (fuel + 1) s scan =
      scanLine maxToken fuel (s + 1) (scan.leave s) := by
  have hne : scan.line s ≠ 0 := by
    rw [hunit]
    decide
  have hturn : scanUnit s scan = scan.leave s := by
    simp [scanUnit, Scan.leave, hin, hunit]
  rw [scanLine, if_pos ⟨hne, Or.inl hin⟩, hturn]

theorem scanLine_inside {word rest : List UInt16} (hin : scan.inw = true)
    (hword : space ∉ word) (hreads : ReadsAs 0 scan.line s (word ++ rest)) :
    scanLine maxToken (fuel + word.length) s scan =
      scanLine maxToken fuel (s + word.length) scan := by
  induction word generalizing s with
  | nil => rfl
  | cons c cs ih =>
      rcases hreads with ⟨hfirst, hne, hrest⟩
      have hunit : scan.line s ≠ space := by
        intro hspace
        exact hword (by simp [← hspace, hfirst])
      have hturn : scanUnit s scan = scan := by
        simp [scanUnit, hin, hunit]
      have hcs : space ∉ cs := fun h => hword (List.mem_cons_of_mem c h)
      rw [List.length_cons, ← Nat.add_assoc fuel, scanLine,
        if_pos ⟨hfirst ▸ hne, Or.inl hin⟩, hturn, ih hcs hrest]
      congr 1
      omega

theorem scanLine_word {word rest : List UInt16} (hout : scan.inw = false)
    (hroom : scan.ntok < maxToken) (hword : space ∉ word) (hne : word ≠ [])
    (hreads : ReadsAs 0 scan.line s (word ++ rest)) :
    scanLine maxToken (fuel + word.length) s scan =
      scanLine maxToken fuel (s + word.length) (scan.enter s) := by
  cases word with
  | nil => exact absurd rfl hne
  | cons c cs =>
      rcases hreads with ⟨hfirst, hc, hrest⟩
      have hunit : scan.line s ≠ space := by
        intro hspace
        exact hword (by simp [← hspace, hfirst])
      have hcs : space ∉ cs := fun h => hword (List.mem_cons_of_mem c h)
      have hinside : ReadsAs 0 (scan.enter s).line (s + 1) (cs ++ rest) := hrest
      rw [List.length_cons, ← Nat.add_assoc fuel, scanLine_enter hout hroom (hfirst ▸ hc) hunit,
        scanLine_inside rfl hcs hinside, Nat.add_assoc s, Nat.add_comm 1]

end Turns

/-!
# What the scan makes of a line
-/

/-- The scan went from `before` to `after` over the line from `s` on. -/
structure Splits (maxToken s : Nat) (text : List UInt16) (before after : Scan) : Prop where
  ntok : after.ntok = before.ntok + min (maxToken - before.ntok) (words space text).length
  args : forall i word, before.ntok + i < after.ntok -> (words space text)[i]? = some word ->
    ReadsAs 0 after.line (after.args (before.ntok + i)) word
  others : forall i, i < before.ntok ∨ after.ntok ≤ i -> after.args i = before.args i
  line : forall j, after.line j ≠ before.line j ->
    s ≤ j ∧ j < s + text.length ∧ before.line j = space

theorem splits_stop {maxToken s : Nat} {text : List UInt16} {scan : Scan}
    (hstop : min (maxToken - scan.ntok) (words space text).length = 0) :
    Splits maxToken s text scan scan where
  ntok := by rw [hstop, Nat.add_zero]
  args := fun i word hi => absurd hi (by omega)
  others := fun i hi => rfl
  line := fun j hj => absurd rfl hj

theorem splits_space {maxToken s : Nat} {rest : List UInt16} {before after : Scan}
    (hrest : Splits maxToken (s + 1) rest before after) :
    Splits maxToken s (space :: rest) before after where
  ntok := by
    rw [words_sep]
    exact hrest.ntok
  args := by
    rw [words_sep]
    exact hrest.args
  others := hrest.others
  line := by
    intro j hj
    rcases hrest.line j hj with ⟨hfirst, hlast, hunit⟩
    rw [List.length_cons]
    exact ⟨by omega, by omega, hunit⟩

theorem splits_last {maxToken s : Nat} {word : List UInt16} {scan : Scan}
    (hroom : scan.ntok < maxToken) (hword : space ∉ word) (hne : word ≠ [])
    (hreads : ReadsAs 0 scan.line s word) :
    Splits maxToken s word scan (scan.enter s) where
  ntok := by
    rw [words_word hword hne, List.length_singleton]
    change scan.ntok + 1 = _
    omega
  args := by
    intro i found hi hfound
    have hzero : i = 0 := by
      change scan.ntok + i < scan.ntok + 1 at hi
      omega
    subst hzero
    rw [words_word hword hne] at hfound
    cases hfound
    change ReadsAs 0 scan.line (Function.update scan.args scan.ntok s scan.ntok) word
    rwa [Function.update_self]
  others := by
    intro i hi
    apply Function.update_of_ne
    change i < scan.ntok ∨ scan.ntok + 1 ≤ i at hi
    omega
  line := fun j hj => absurd rfl hj

theorem splits_word {maxToken s : Nat} {word rest : List UInt16} {scan after : Scan}
    (hroom : scan.ntok < maxToken) (hword : space ∉ word) (hne : word ≠ [])
    (hreads : ReadsAs 0 scan.line s (word ++ space :: rest))
    (hrest : Splits maxToken (s + word.length + 1) rest
      ((scan.enter s).leave (s + word.length)) after) :
    Splits maxToken s (word ++ space :: rest) scan after := by
  have hntok : after.ntok =
      scan.ntok + 1 + min (maxToken - (scan.ntok + 1)) (words space rest).length := hrest.ntok
  have hend : scan.line (s + word.length) = space := (readsAs_append hreads).1
  -- Up to the end of the word the line is as `leave` has made it.
  have hline : forall j, j ≤ s + word.length ->
      after.line j = Function.update scan.line (s + word.length) 0 j := by
    intro j hj
    by_contra hchanged
    have hlater := (hrest.line j hchanged).1
    omega
  refine ⟨?_, ?_, ?_, ?_⟩
  · rw [words_word_sep hword hne, List.length_cons, hntok]
    omega
  · intro i found hi hfound
    rw [words_word_sep hword hne] at hfound
    cases i with
    | zero =>
        cases hfound
        have harg : after.args scan.ntok = s := by
          rw [hrest.others scan.ntok (Or.inl (Nat.lt_succ_self _))]
          exact Function.update_self ..
        rw [Nat.add_zero, harg]
        apply readsAs_of_append hreads
        · intro j _ hlast
          rw [hline j (Nat.le_of_lt hlast), Function.update_of_ne (Nat.ne_of_lt hlast)]
        · rw [hline _ (Nat.le_refl _), Function.update_self]
    | succ i =>
        have hplace : scan.ntok + (i + 1) = scan.ntok + 1 + i := by omega
        rw [hplace] at hi ⊢
        exact hrest.args i found hi hfound
  · intro i hi
    have hne' : i ≠ scan.ntok := by omega
    have hother : i < scan.ntok + 1 ∨ after.ntok ≤ i := by omega
    exact (hrest.others i hother).trans (Function.update_of_ne hne' ..)
  · intro j hj
    rw [List.length_append, List.length_cons]
    by_cases hwritten : j ≤ s + word.length
    · rw [hline j hwritten] at hj
      have hplace : j = s + word.length := by
        by_contra hother
        exact hj (Function.update_of_ne hother ..)
      exact ⟨by omega, by omega, hplace ▸ hend⟩
    · have hkept : ((scan.enter s).leave (s + word.length)).line j = scan.line j :=
        Function.update_of_ne (by omega) ..
      rcases hrest.line j (hkept.symm ▸ hj) with ⟨hfirst, hlast, hunit⟩
      exact ⟨by omega, by omega, hkept ▸ hunit⟩

theorem scanLine_splits {maxToken : Nat} (text : List UInt16) {s : Nat} {scan : Scan}
    (hout : scan.inw = false) (hreads : ReadsAs 0 scan.line s text) {fuel : Nat}
    (hfuel : text.length < fuel) :
    exists after, scanLine maxToken fuel s scan = some after ∧
      Splits maxToken s text scan after := by
  induction text using line_induction space generalizing s scan fuel with
  | nil =>
      rcases Nat.exists_eq_add_of_lt hfuel with ⟨more, rfl⟩
      refine ⟨scan, scanLine_nul hreads, splits_stop ?_⟩
      rw [words_nil]
      exact Nat.min_zero _
  | space rest ih =>
      rcases Nat.exists_eq_add_of_lt hfuel with ⟨more, rfl⟩
      by_cases hroom : scan.ntok < maxToken
      · rw [scanLine_space hout hroom hreads.1]
        have hmore : rest.length < (space :: rest).length + more := by
          rw [List.length_cons]
          omega
        rcases ih hout hreads.2.2 hmore with ⟨after, hrun, hsplits⟩
        exact ⟨after, hrun, splits_space hsplits⟩
      · exact ⟨scan, scanLine_full hout (Nat.le_of_not_lt hroom), splits_stop (by omega)⟩
  | last word hword hne =>
      rcases Nat.exists_eq_add_of_lt hfuel with ⟨more, rfl⟩
      by_cases hroom : scan.ntok < maxToken
      · have hplain : ReadsAs 0 scan.line s (word ++ []) := by
          rwa [List.append_nil]
        have hend : (scan.enter s).line (s + word.length) = 0 := readsAs_append hplain
        refine ⟨scan.enter s, ?_, splits_last hroom hword hne hreads⟩
        rw [show word.length + more + 1 = more + 1 + word.length by omega,
          scanLine_word hout hroom hword hne hplain, scanLine_nul hend]
      · exact ⟨scan, scanLine_full hout (Nat.le_of_not_lt hroom), splits_stop (by omega)⟩
  | word word rest hword hne ih =>
      rcases Nat.exists_eq_add_of_lt hfuel with ⟨more, rfl⟩
      by_cases hroom : scan.ntok < maxToken
      · have htail : ReadsAs 0 scan.line (s + word.length) (space :: rest) :=
          readsAs_append hreads
        have hrest : ReadsAs 0 ((scan.enter s).leave (s + word.length)).line
            (s + word.length + 1) rest := by
          apply readsAs_congr htail.2.2
          intro i hi _
          exact Function.update_of_ne (by omega) ..
        have hmore : rest.length < rest.length + more + 1 := by omega
        rcases ih rfl hrest hmore with ⟨after, hrun, hsplits⟩
        refine ⟨after, ?_, splits_word hroom hword hne hreads hsplits⟩
        have hleave : scanLine maxToken (rest.length + more + 1 + 1) (s + word.length)
            (scan.enter s) = _ :=
          scanLine_leave rfl htail.1
        rw [List.length_append, List.length_cons,
          show word.length + (rest.length + 1) + more + 1 =
            rest.length + more + 1 + 1 + word.length by omega,
          scanLine_word hout hroom hword hne hreads, hleave, hrun]
      · exact ⟨scan, scanLine_full hout (Nat.le_of_not_lt hroom), splits_stop (by omega)⟩

/-- The first space of a line that begins with one ends no word, but is written over. -/
theorem splits_leading {maxToken s : Nat} {rest : List UInt16} {scan after : Scan}
    (hunit : scan.line s = space) (hrest : Splits maxToken (s + 1) rest (scan.leave s) after) :
    Splits maxToken s (space :: rest) scan after where
  ntok := by
    rw [words_sep]
    exact hrest.ntok
  args := by
    rw [words_sep]
    exact hrest.args
  others := hrest.others
  line := by
    intro j hj
    rw [List.length_cons]
    by_cases hplace : j = s
    · exact ⟨by omega, by omega, hplace ▸ hunit⟩
    · have hkept : (scan.leave s).line j = scan.line j := Function.update_of_ne hplace ..
      rcases hrest.line j (hkept.symm ▸ hj) with ⟨hfirst, hlast, hspace⟩
      exact ⟨by omega, by omega, hkept ▸ hspace⟩

/-- The scan of a line, which begins inside a word if the line begins with a space. -/
theorem splitCmdline_run {line : Nat -> UInt16} {text : List UInt16}
    (hline : ReadsAs 0 line 0 text) (maxToken : Nat) (args : Nat -> Nat) {fuel : Nat}
    (hfuel : text.length < fuel) :
    exists after, splitCmdline fuel line maxToken args = some after ∧
      Splits maxToken 0 text
        { line := line, args := args, ntok := 0, inw := decide (line 0 = space) } after := by
  unfold splitCmdline
  generalize hstart : (Scan.mk line args 0 (decide (line 0 = space))) = start
  have hstartLine : start.line = line := by rw [← hstart]
  have hinw : start.inw = decide (start.line 0 = space) := by rw [← hstart]
  rw [← hstartLine] at hline
  by_cases hfirst : start.line 0 = space
  · rw [decide_eq_true hfirst] at hinw
    cases text with
    | nil =>
        have hnul : start.line 0 = 0 := hline
        rw [hnul] at hfirst
        exact absurd hfirst (by decide)
    | cons c rest =>
        rcases Nat.exists_eq_add_of_lt hfuel with ⟨more, rfl⟩
        have hrest : ReadsAs 0 (start.leave 0).line 1 rest := by
          apply readsAs_congr hline.2.2
          intro i hi _
          exact Function.update_of_ne (by omega) ..
        have hmore : rest.length < (c :: rest).length + more := by
          rw [List.length_cons]
          omega
        have hspace : c = space := hline.1.symm.trans hfirst
        rcases scanLine_splits rest rfl hrest hmore with ⟨after, hrun, hsplits⟩
        rw [hspace]
        exact ⟨after, (scanLine_leave hinw hfirst).trans hrun, splits_leading hfirst hsplits⟩
  · rw [decide_eq_false hfirst] at hinw
    exact scanLine_splits text hinw hline hfuel

/-!
# The whole line
-/

/-- `split_cmdline` has stored the words of the line, as far as the limit goes. -/
structure SplitsLine (maxToken : Nat) (line : Nat -> UInt16) (text : List UInt16)
    (args : Nat -> Nat) (after : Scan) : Prop where
  ntok : after.ntok = min maxToken (words space text).length
  found : forall i word, i < after.ntok -> (words space text)[i]? = some word ->
    ReadsAs 0 after.line (after.args i) word
  others : forall i, after.ntok ≤ i -> after.args i = args i
  line : forall j, after.line j ≠ line j -> j < text.length ∧ line j = space

/--
A terminated line is split for every limit: the words up to it are stored and
can be read back, and nothing but spaces is written over.
-/
theorem splitCmdline_splits {line : Nat -> UInt16} {text : List UInt16}
    (hline : ReadsAs 0 line 0 text) (maxToken : Nat) (args : Nat -> Nat) {fuel : Nat}
    (hfuel : text.length < fuel) :
    exists after, splitCmdline fuel line maxToken args = some after ∧
      SplitsLine maxToken line text args after := by
  rcases splitCmdline_run hline maxToken args hfuel with ⟨after, hrun, hsplits⟩
  refine ⟨after, hrun, ?_, ?_, ?_, ?_⟩
  · rw [hsplits.ntok]
    exact Nat.zero_add _
  · intro i word hi hword
    have hstored := hsplits.args i word
    rw [Nat.zero_add] at hstored
    exact hstored hi hword
  · exact fun i hi => hsplits.others i (Or.inr hi)
  · intro j hj
    rcases hsplits.line j hj with ⟨-, hlast, hspace⟩
    exact ⟨by omega, hspace⟩

/-- `-c  boot`: two words with two spaces between them. -/
def optionLine : Nat -> UInt16 := fun i =>
  [0x2d, 0x63, 0x20, 0x20, 0x62, 0x6f, 0x6f, 0x74].getD i 0

theorem splitCmdline_splits_of_option :
    ReadsAs 0 optionLine 0 [0x2d, 0x63, 0x20, 0x20, 0x62, 0x6f, 0x6f, 0x74] ∧
      exists after, splitCmdline 9 optionLine 10 (fun _ => 0) = some after ∧
        SplitsLine 10 optionLine [0x2d, 0x63, 0x20, 0x20, 0x62, 0x6f, 0x6f, 0x74]
          (fun _ => 0) after := by
  have hline : ReadsAs 0 optionLine 0 [0x2d, 0x63, 0x20, 0x20, 0x62, 0x6f, 0x6f, 0x74] := by
    simp [ReadsAs, optionLine]
  exact ⟨hline, splitCmdline_splits hline 10 (fun _ => 0) (by decide)⟩

end Fastboot
end BootableUefi
