import BootableUefi.Efilinux.Arguments

/-!
# When the arguments stay in their buffer

A turn of the loop of `parse_args` that does not leave the buffer shows how the
text goes on, and the loop comes back from every text that goes on like that.
-/

namespace BootableUefi
namespace Efilinux

open Firmware Foundation

/-!
# From the turns of the loop to the text
-/

section Turns

variable {env : ParseEnv} {s : ParseState}

/-- What the pointer still has before it fits. -/
def ParseState.Fits (env : ParseEnv) (s : ParseState) : Prop :=
  Efilinux.Fits env s.name.isSome s.calls (s.text.drop s.n)

theorem ParseState.fits_of_text {text : List UInt16} (htext : s.text.drop s.n = text)
    (h : Efilinux.Fits env s.name.isSome s.calls text) : s.Fits env := by
  rw [← htext] at h
  exact h

theorem getElem?_of_drop {text rest : List UInt16} {n : Nat} {c : UInt16}
    (htext : text.drop n = c :: rest) : text[n]? = some c := by
  have h : (text.drop n)[0]? = text[n + 0]? := List.getElem?_drop
  rw [htext] at h
  exact h.symm

theorem drop_of_getElem? {text : List UInt16} {n : Nat} {c : UInt16}
    (h : text[n]? = some c) : text.drop n = c :: text.drop (n + 1) := by
  rcases List.getElem?_eq_some_iff.mp h with ⟨hn, rfl⟩
  exact List.drop_eq_getElem_cons hn

theorem exists_stringAt_iff {text : List UInt16} {n : Nat} :
    (exists string, stringAt text n = some string) <-> 0 ∈ text.drop n := by
  have hiff := @exists_skipWhile_iff _ (fun c : UInt16 => c != 0) (text.drop n) n
  constructor
  · rintro ⟨string, h⟩
    rcases Option.map_eq_some_iff.mp h with ⟨m, hm, -⟩
    rcases hiff.mp ⟨m, hm⟩ with ⟨c, hc, hzero⟩
    rw [bne_eq_false_iff_eq] at hzero
    exact hzero ▸ hc
  · intro hnul
    rcases hiff.mpr ⟨0, hnul, rfl⟩ with ⟨m, hm⟩
    exact ⟨_, Option.map_eq_some_iff.mpr ⟨m, hm, rfl⟩⟩

theorem cmdlineTurn_cases (env : ParseEnv) (s : ParseState) :
    (0 ∈ s.text.drop s.n ∧ exists parsed, cmdlineTurn env s = Turn.returns parsed) ∨
      (0 ∉ s.text.drop s.n ∧ cmdlineTurn env s = Turn.outside) := by
  unfold cmdlineTurn
  cases hstring : stringAt s.text s.n with
  | none =>
      refine Or.inr ⟨fun hnul => ?_, rfl⟩
      rcases exists_stringAt_iff.mpr hnul with ⟨string, h⟩
      rw [hstring] at h
      cases h
  | some string =>
      refine Or.inl ⟨exists_stringAt_iff.mp ⟨string, hstring⟩, ?_⟩
      cases env.cmdlineAlloc with
      | true => exact ⟨_, rfl⟩
      | false => exact ⟨_, rfl⟩

theorem eq_unit_of_noJump {runtime : Bool} {c : UInt16}
    (h : switchAt runtime c = Switch.noJump) : c = unit 'n' := by
  unfold switchAt at h
  split_ifs at h with _ _ _ _ _ _ hn
  exact hn

/-- The pointer has not left the buffer, whose size is that in bytes. -/
structure ParseState.Within (size : Nat) (s : ParseState) : Prop where
  below : s.n ≤ s.text.length
  inside : s.text.length < size

theorem within_behind {size : Nat} (h : s.Within size) {a : Argument} {alloc : Bool}
    {rest : List UInt16} {word : Word} (hgives : a.Gives alloc s.text.length rest word) :
    (s.behind word).Within size :=
  ⟨hgives.below, hgives.length.trans_lt h.inside⟩

/-- The pointer at the letter of an argument. -/
structure ParseState.AtArgument (s : ParseState) (a : Argument) (rest : List UInt16) : Prop where
  letter : s.text[s.n]? = some a.letter
  text : s.text.drop (s.n + 1) = a.gap ++ (a.word ++ a.last :: rest)

theorem argumentTurn_taken {a : Argument} {rest : List UInt16} (hat : s.AtArgument a rest)
    (hnamed : env.alloc s.calls = true ∨ s.name.isSome = true) :
    exists t, argumentTurn env a.letter s = Turn.again t ∧ t.name.isSome = true ∧
      t.calls = s.calls + 1 ∧ t.text.drop t.n = rest ∧
      forall size, s.Within size -> t.Within size := by
  rcases getArgument_eq a hat.text (env.alloc s.calls) with ⟨word, hword, hgives⟩
  have hname : (word.copy.orElse fun _ => s.name).isSome = true := by
    rw [hgives.copy]
    cases halloc : env.alloc s.calls with
    | true => rfl
    | false =>
        rw [halloc] at hnamed
        rcases hnamed with hfalse | hsome
        · cases hfalse
        · exact hsome
  have hsome : (s.takes a.letter word).name.isNone = false := by
    rw [Option.isNone_eq_false_iff]
    exact hname
  refine ⟨s.takes a.letter word, ?_, hname, rfl, hgives.rest, fun size h => ?_⟩
  · unfold argumentTurn
    rw [hword]
    dsimp only
    rw [hsome, if_neg Bool.false_ne_true]
  · exact ⟨(within_behind h hgives).below, (within_behind h hgives).inside⟩

theorem argumentTurn_unnamed {a : Argument} {rest : List UInt16} (hat : s.AtArgument a rest)
    (halloc : env.alloc s.calls = false) (hname : s.name.isSome = false) :
    exists parsed, argumentTurn env a.letter s = Turn.returns parsed := by
  rcases getArgument_eq a hat.text (env.alloc s.calls) with ⟨word, hword, hgives⟩
  have hnone : (s.takes a.letter word).name.isNone = true := by
    change (word.copy.orElse fun _ => s.name).isNone = true
    rw [hgives.copy, halloc]
    exact Option.isSome_eq_false_iff.mp hname
  refine ⟨(s.takes a.letter word).parsed ParseResult.usage, ?_⟩
  unfold argumentTurn
  rw [hword]
  dsimp only
  rw [hnone, if_pos rfl]

theorem policyTurn_copied {word : Word} {policy : List UInt16}
    (hword : getArgument (env.alloc s.calls) s.text (s.n + 1) = some word)
    (hcopy : word.copy = some policy) (hne : policy ≠ []) :
    policyTurn env s =
      if efiError (emSetPolicy policy) then
        Turn.returns ((s.behind word).parsed ParseResult.usage)
      else Turn.again (s.behind word) := by
  unfold policyTurn
  rw [hword]
  dsimp only
  rw [hcopy]
  cases policy with
  | nil => exact absurd rfl hne
  | cons c cs => rfl

theorem policyTurn_known {a : Argument} {rest : List UInt16} (hat : s.AtArgument a rest)
    (halloc : env.alloc s.calls = true) (hpolicy : emSetPolicy a.word = EfiStatus.success) :
    exists t, policyTurn env s = Turn.again t ∧ t.name = s.name ∧ t.calls = s.calls + 1 ∧
      t.text.drop t.n = rest ∧ forall size, s.Within size -> t.Within size := by
  rcases getArgument_eq a hat.text (env.alloc s.calls) with ⟨word, hword, hgives⟩
  have hcopy : word.copy = some a.word := by
    rw [hgives.copy, halloc, if_pos rfl]
  have hno : efiError (emSetPolicy a.word) = false := efiError_eq_false_iff.mpr hpolicy
  refine ⟨s.behind word, ?_, rfl, rfl, hgives.rest, fun size h => within_behind h hgives⟩
  rw [policyTurn_copied hword hcopy a.word_ne_nil, hno, if_neg Bool.false_ne_true]

theorem policyTurn_unknown {a : Argument} {rest : List UInt16} (hat : s.AtArgument a rest)
    (halloc : env.alloc s.calls = true) (hpolicy : emSetPolicy a.word ≠ EfiStatus.success) :
    exists parsed, policyTurn env s = Turn.returns parsed := by
  rcases getArgument_eq a hat.text (env.alloc s.calls) with ⟨word, hword, hgives⟩
  have hcopy : word.copy = some a.word := by
    rw [hgives.copy, halloc, if_pos rfl]
  have herror : efiError (emSetPolicy a.word) = true := efiError_eq_true_iff.mpr hpolicy
  refine ⟨(s.behind word).parsed ParseResult.usage, ?_⟩
  rw [policyTurn_copied hword hcopy a.word_ne_nil, herror, if_pos rfl]

/-- Without memory the policy is read from a pointer nothing was stored in. -/
theorem policyTurn_stray (halloc : env.alloc s.calls = false) :
    policyTurn env s = Turn.outside := by
  unfold policyTurn
  cases hword : getArgument (env.alloc s.calls) s.text (s.n + 1) with
  | none => rfl
  | some word =>
      rcases getArgument_argument hword 0 with ⟨a, rest, -, -, hgives⟩
      dsimp only
      rw [hgives.copy, halloc]
      rfl

theorem atArgument_or_outside (env : ParseEnv) {c : UInt16} (hc : s.text[s.n]? = some c) :
    (exists (a : Argument) (rest : List UInt16), a.letter = c ∧ s.AtArgument a rest) ∨
      (argumentTurn env c s = Turn.outside ∧ policyTurn env s = Turn.outside) := by
  cases hword : getArgument (env.alloc s.calls) s.text (s.n + 1) with
  | none =>
      refine Or.inr ⟨?_, ?_⟩
      · unfold argumentTurn
        rw [hword]
      · unfold policyTurn
        rw [hword]
  | some word =>
      rcases getArgument_argument hword c with ⟨a, rest, hletter, htext, -⟩
      exact Or.inl ⟨a, rest, hletter, hletter ▸ hc, htext⟩

def ParseState.atLetter (s : ParseState) : ParseState :=
  { s with n := s.n + 1 }

theorem parseTurn_switch (hc : s.text[s.n]? = some (unit '-')) :
    parseTurn env s = switchTurn env s.atLetter := by
  unfold parseTurn
  rw [hc]
  exact if_pos rfl

theorem parseTurn_cmdline (env : ParseEnv) {c : UInt16} (hc : s.text[s.n]? = some c) (hne : c ≠ unit '-') :
    parseTurn env s = cmdlineTurn env s := by
  unfold parseTurn
  rw [hc]
  exact if_neg hne

theorem atArgument_iff {a : Argument} {rest : List UInt16}
    (hc : s.text[s.n]? = some (unit '-')) :
    s.atLetter.AtArgument a rest <-> s.text.drop s.n = a.before rest := by
  have htext := drop_of_getElem? hc
  constructor
  · intro hat
    have hletter : s.text.drop (s.n + 1) = _ := drop_of_getElem? hat.letter
    have hargument : s.text.drop (s.n + 1 + 1) = _ := hat.text
    rw [htext, hletter, hargument]
    rfl
  · intro hbefore
    rw [htext] at hbefore
    have hletter : s.text.drop (s.n + 1) =
        a.letter :: (a.gap ++ (a.word ++ a.last :: rest)) := (List.cons.inj hbefore).2
    refine ⟨getElem?_of_drop hletter, ?_⟩
    have hdrop := drop_of_getElem? (getElem?_of_drop hletter)
    rw [hletter] at hdrop
    exact (List.cons.inj hdrop).2.symm

theorem Fits.nul {named : Bool} {calls : Nat} {text : List UInt16}
    (h : Efilinux.Fits env named calls text) {c : UInt16} {rest : List UInt16}
    (htext : text = c :: rest) (hc : c ≠ unit '-') : 0 ∈ text := by
  cases h with
  | cmdline hfirst hnul => exact hnul
  | usage hswitch => exact absurd (List.cons.inj htext).1.symm hc
  | noJump hswitch hnul => exact absurd (List.cons.inj htext).1.symm hc
  | argument hswitch hnamed hrest => exact absurd (List.cons.inj htext).1.symm hc
  | unnamed hswitch halloc => exact absurd (List.cons.inj htext).1.symm hc
  | policy hswitch halloc hpolicy hrest => exact absurd (List.cons.inj htext).1.symm hc
  | badPolicy hswitch halloc hpolicy => exact absurd (List.cons.inj htext).1.symm hc

/-- What a turn that stays in the buffer says of the text it started from. -/
def Turn.Tells (env : ParseEnv) (s : ParseState) : Turn -> Prop
  | Turn.again t => (forall size, s.Within size -> t.Within size) ∧ (t.Fits env -> s.Fits env)
  | Turn.returns _ => s.Fits env
  | Turn.outside => True

theorem within_atLetter (hc : s.text[s.n]? = some (unit '-')) {size : Nat}
    (h : s.Within size) : s.atLetter.Within size := by
  rcases List.getElem?_eq_some_iff.mp hc with ⟨hlt, -⟩
  exact ⟨hlt, h.inside⟩

theorem argumentTurn_tells (hc : s.text[s.n]? = some (unit '-')) {c : UInt16}
    (hletter : s.atLetter.text[s.atLetter.n]? = some c)
    (hswitch : switchAt env.runtimeSettings c = Switch.argument) :
    (argumentTurn env c s.atLetter).Tells env s := by
  rcases atArgument_or_outside env hletter with ⟨a, rest, rfl, hat⟩ | hout
  · have hbefore : s.text.drop s.n = a.before rest := (atArgument_iff hc).mp hat
    by_cases hnamed : env.alloc s.calls = true ∨ s.name.isSome = true
    · rcases argumentTurn_taken hat hnamed with ⟨t, ht, hname, hcalls, hrest, hpass⟩
      rw [ht]
      refine ⟨fun size h => hpass size (within_atLetter hc h), fun hfits => ?_⟩
      unfold ParseState.Fits at hfits
      rw [hname, hcalls, hrest] at hfits
      exact ParseState.fits_of_text hbefore (Fits.argument hswitch hnamed hfits)
    · rw [not_or, Bool.not_eq_true, Bool.not_eq_true] at hnamed
      rcases argumentTurn_unnamed hat hnamed.1 hnamed.2 with ⟨parsed, hparsed⟩
      have hfits : Efilinux.Fits env s.name.isSome s.calls (a.before rest) := by
        rw [hnamed.2]
        exact Fits.unnamed hswitch hnamed.1
      rw [hparsed]
      exact ParseState.fits_of_text hbefore hfits
  · rw [hout.1]
    trivial

theorem policyTurn_tells (hc : s.text[s.n]? = some (unit '-')) {c : UInt16}
    (hletter : s.atLetter.text[s.atLetter.n]? = some c)
    (hswitch : switchAt env.runtimeSettings c = Switch.policy) :
    (policyTurn env s.atLetter).Tells env s := by
  rcases atArgument_or_outside env hletter with ⟨a, rest, rfl, hat⟩ | hout
  · have hbefore : s.text.drop s.n = a.before rest := (atArgument_iff hc).mp hat
    cases halloc : env.alloc s.calls with
    | false =>
        have hstray : policyTurn env s.atLetter = Turn.outside := policyTurn_stray halloc
        rw [hstray]
        trivial
    | true =>
        by_cases hpolicy : emSetPolicy a.word = EfiStatus.success
        · rcases policyTurn_known hat halloc hpolicy with ⟨t, ht, hname, hcalls, hrest, hpass⟩
          rw [ht]
          refine ⟨fun size h => hpass size (within_atLetter hc h), fun hfits => ?_⟩
          unfold ParseState.Fits at hfits
          rw [hname, hcalls, hrest] at hfits
          exact ParseState.fits_of_text hbefore (Fits.policy hswitch halloc hpolicy hfits)
        · rcases policyTurn_unknown hat halloc hpolicy with ⟨parsed, hparsed⟩
          rw [hparsed]
          exact ParseState.fits_of_text hbefore (Fits.badPolicy hswitch halloc hpolicy)
  · rw [hout.2]
    trivial

theorem switchTurn_tells (hc : s.text[s.n]? = some (unit '-')) :
    (switchTurn env s.atLetter).Tells env s := by
  cases hletter : s.atLetter.text[s.atLetter.n]? with
  | none =>
      unfold switchTurn
      rw [hletter]
      trivial
  | some c =>
      have htail : s.text.drop (s.n + 1) = c :: s.text.drop (s.n + 1 + 1) :=
        drop_of_getElem? hletter
      have htext : s.text.drop s.n = unit '-' :: c :: s.text.drop (s.n + 1 + 1) := by
        rw [drop_of_getElem? hc, htail]
      unfold switchTurn
      rw [hletter]
      dsimp only
      cases hswitch : switchAt env.runtimeSettings c with
      | usage =>
          exact ParseState.fits_of_text htext (Fits.usage (Or.inl hswitch))
      | fail =>
          exact ParseState.fits_of_text htext (Fits.usage (Or.inr hswitch))
      | argument => exact argumentTurn_tells hc hletter hswitch
      | policy => exact policyTurn_tells hc hletter hswitch
      | noJump =>
          refine ⟨fun size h => within_atLetter hc h, fun hfits => ?_⟩
          have hn : c = unit 'n' := eq_unit_of_noJump hswitch
          have hne : c ≠ unit '-' := by
            rw [hn]
            decide
          have hnul : 0 ∈ s.text.drop (s.n + 1) := hfits.nul htail hne
          rw [htail] at hnul
          have hrest : 0 ∈ s.text.drop (s.n + 1 + 1) := by
            rcases List.mem_cons.mp hnul with hzero | hrest
            · rw [hn] at hzero
              exact absurd hzero (by decide)
            · exact hrest
          exact ParseState.fits_of_text htext (Fits.noJump hswitch hrest)

theorem parseTurn_tells (env : ParseEnv) (s : ParseState) :
    (parseTurn env s).Tells env s := by
  cases hc : s.text[s.n]? with
  | none =>
      unfold parseTurn
      rw [hc]
      trivial
  | some c =>
      by_cases hdash : c = unit '-'
      · subst hdash
        rw [parseTurn_switch hc]
        exact switchTurn_tells hc
      · rw [parseTurn_cmdline env hc hdash]
        rcases cmdlineTurn_cases env s with ⟨hnul, parsed, hparsed⟩ | ⟨-, hout⟩
        · rw [drop_of_getElem? hc] at hnul
          rw [hparsed]
          exact ParseState.fits_of_text (drop_of_getElem? hc) (Fits.cmdline hdash hnul)
        · rw [hout]
          trivial

end Turns

/-!
# The loop
-/

section Loop

variable {env : ParseEnv} {size : Nat} {s : ParseState}

/-- The bound of the loop is not reached from within the buffer. -/
theorem parseLoop_succ (h : s.Within size) (fuel : Nat) :
    parseLoop env size (fuel + 1) s =
      match parseTurn env s with
      | Turn.again s => parseLoop env size fuel s
      | Turn.returns parsed => some (ParseEnd.returns parsed)
      | Turn.outside => some ParseEnd.outside := by
  have hle : s.n ≤ size := Nat.le_of_lt (Nat.lt_of_le_of_lt h.below h.inside)
  exact if_pos hle

theorem fits_of_parseLoop {fuel : Nat} {parsed : Parsed} (h : s.Within size)
    (hloop : parseLoop env size fuel s = some (ParseEnd.returns parsed)) : s.Fits env := by
  induction fuel generalizing s with
  | zero => cases hloop
  | succ fuel ih =>
      rw [parseLoop_succ h] at hloop
      have htells := parseTurn_tells env s
      cases hturn : parseTurn env s with
      | outside =>
          rw [hturn] at hloop
          cases hloop
      | returns parsed' =>
          rw [hturn] at htells
          exact htells
      | again t =>
          rw [hturn] at hloop htells
          exact htells.2 (ih (htells.1 size h) hloop)

theorem parseLoop_returns (h : s.Within size) {parsed : Parsed}
    (hturn : parseTurn env s = Turn.returns parsed) :
    exists fuel parsed, parseLoop env size fuel s = some (ParseEnd.returns parsed) := by
  refine ⟨1, parsed, ?_⟩
  rw [parseLoop_succ h, hturn]

theorem parseLoop_again (h : s.Within size) {t : ParseState}
    (hturn : parseTurn env s = Turn.again t)
    (hloop : exists fuel parsed, parseLoop env size fuel t = some (ParseEnd.returns parsed)) :
    exists fuel parsed, parseLoop env size fuel s = some (ParseEnd.returns parsed) := by
  rcases hloop with ⟨fuel, parsed, hrun⟩
  refine ⟨fuel + 1, parsed, ?_⟩
  rw [parseLoop_succ h, hturn]
  exact hrun

theorem at_switch {c : UInt16} {rest : List UInt16}
    (htext : s.text.drop s.n = unit '-' :: c :: rest) :
    s.text[s.n]? = some (unit '-') ∧ s.text.drop (s.n + 1) = c :: rest := by
  have hc : s.text[s.n]? = some (unit '-') := getElem?_of_drop htext
  have hdrop := drop_of_getElem? hc
  rw [htext] at hdrop
  exact ⟨hc, (List.cons.inj hdrop).2.symm⟩

theorem parseTurn_letter {c : UInt16} {rest : List UInt16}
    (htext : s.text.drop s.n = unit '-' :: c :: rest) {kind : Switch}
    (hswitch : switchAt env.runtimeSettings c = kind) :
    parseTurn env s = switchCase env c s.atLetter kind := by
  rcases at_switch htext with ⟨hc, hrest⟩
  have hletter : s.atLetter.text[s.atLetter.n]? = some c := getElem?_of_drop hrest
  rw [parseTurn_switch hc]
  unfold switchTurn
  rw [hletter, ← hswitch]

theorem parseLoop_of_fits {named : Bool} {calls : Nat} {text : List UInt16}
    (hfits : Fits env named calls text) (h : s.Within size) (hname : s.name.isSome = named)
    (hcalls : s.calls = calls) (htext : s.text.drop s.n = text) :
    exists fuel parsed, parseLoop env size fuel s = some (ParseEnd.returns parsed) := by
  induction hfits generalizing s with
  | cmdline hfirst hnul =>
      have hturn := parseTurn_cmdline env (getElem?_of_drop htext) hfirst
      rcases cmdlineTurn_cases env s with ⟨-, parsed, hparsed⟩ | ⟨hnone, -⟩
      · exact parseLoop_returns h (hturn.trans hparsed)
      · rw [htext] at hnone
        exact absurd hnul hnone
  | usage hswitch =>
      rcases hswitch with husage | hfail
      · exact parseLoop_returns h (parseTurn_letter htext husage)
      · exact parseLoop_returns h (parseTurn_letter htext hfail)
  | noJump hswitch hnul =>
      rcases at_switch htext with ⟨hc, hletter⟩
      refine parseLoop_again h (parseTurn_letter htext hswitch) ?_
      have hn := eq_unit_of_noJump hswitch
      have hcmdline : parseTurn env s.atLetter = cmdlineTurn env s.atLetter := by
        refine parseTurn_cmdline env (getElem?_of_drop hletter) ?_
        rw [hn]
        decide
      rcases cmdlineTurn_cases env s.atLetter with ⟨-, parsed, hparsed⟩ | ⟨hnone, -⟩
      · exact parseLoop_returns (within_atLetter hc h) (hcmdline.trans hparsed)
      · exact absurd (hletter ▸ List.mem_cons_of_mem _ hnul) hnone
  | argument hswitch hnamed hrest ih =>
      have hc := (at_switch htext).1
      have hat := (atArgument_iff hc).mpr htext
      subst hname hcalls
      rcases argumentTurn_taken hat hnamed with ⟨t, ht, htname, htcalls, htrest, hpass⟩
      exact parseLoop_again h ((parseTurn_letter htext hswitch).trans ht)
        (ih (hpass size (within_atLetter hc h)) htname htcalls htrest)
  | unnamed hswitch halloc =>
      have hat := (atArgument_iff (at_switch htext).1).mpr htext
      subst hcalls
      rcases argumentTurn_unnamed hat halloc hname with ⟨parsed, hparsed⟩
      exact parseLoop_returns h ((parseTurn_letter htext hswitch).trans hparsed)
  | policy hswitch halloc hpolicy hrest ih =>
      have hc := (at_switch htext).1
      have hat := (atArgument_iff hc).mpr htext
      subst hname hcalls
      rcases policyTurn_known hat halloc hpolicy with ⟨t, ht, htname, htcalls, htrest, hpass⟩
      exact parseLoop_again h ((parseTurn_letter htext hswitch).trans ht)
        (ih (hpass size (within_atLetter hc h)) (congrArg Option.isSome htname) htcalls htrest)
  | badPolicy hswitch halloc hpolicy =>
      have hat := (atArgument_iff (at_switch htext).1).mpr htext
      subst hcalls
      rcases policyTurn_unknown hat halloc hpolicy with ⟨parsed, hparsed⟩
      exact parseLoop_returns h ((parseTurn_letter htext hswitch).trans hparsed)

end Loop

/-!
# The load options
-/

/-- A buffer of so many bytes, with a text that ends in it. -/
structure LoadOptions where
  text : List UInt16
  size : Nat
  size_lt : size < 2 ^ 32
  text_length : text.length = size / 2
  terminated : 0 ∈ text

/-- `parse_args` comes back, and no unit outside the buffer has been touched. -/
def StaysInside (env : ParseEnv) (options : List UInt16) (size : Nat) : Prop :=
  exists fuel parsed, parseArgs env fuel options size = some (ParseEnd.returns parsed)

/-- The same after `efi_main` has skipped the first word inside the buffer. -/
def StaysInsideBehindName (env : ParseEnv) (options : List UInt16) (size : Nat) : Prop :=
  exists rest size', skipName options size = some (rest, size') ∧ StaysInside env rest size'

theorem staysInside_iff (env : ParseEnv) {options : List UInt16} {size : Nat}
    (hsize : options.length < size) :
    StaysInside env options size <-> Fits env false 0 (options.dropWhile isspace) := by
  have hskip : skipBelow isspace size options 0 = skipWhile isspace (options.drop 0) 0 :=
    skipBelow_eq (by omega)
  unfold StaysInside parseArgs
  rw [hskip]
  cases hstart : skipWhile isspace (options.drop 0) 0 with
  | none =>
      have hnil : options.dropWhile isspace = [] := skipWhile_eq_none_iff.mp hstart
      rw [hnil]
      refine ⟨fun hstays => ?_, fun hfits => nomatch hfits⟩
      rcases hstays with ⟨fuel, parsed, h⟩
      cases h
  | some i =>
      have hdrop : options.drop i = options.dropWhile isspace := drop_of_skipWhile hstart
      rcases skipWhile_eq_some hstart with ⟨run, c, rest, htext, -, -, hi⟩
      have hlength := congrArg List.length htext
      rw [List.drop_zero, List.length_append, List.length_cons] at hlength
      have hne : i ≠ size := by omega
      let s : ParseState := { text := options, n := i, type := 0, name := none, calls := 0 }
      have hwithin : s.Within size := by
        refine ⟨?_, hsize⟩
        change i ≤ options.length
        omega
      rw [← hdrop]
      dsimp only
      constructor
      · rintro ⟨fuel, parsed, h⟩
        rw [if_neg hne] at h
        exact fits_of_parseLoop hwithin h
      · intro hfits
        rcases parseLoop_of_fits hfits hwithin rfl rfl rfl with ⟨fuel, parsed, h⟩
        exact ⟨fuel, parsed, by rw [if_neg hne]; exact h⟩

theorem staysInsideBehindName_iff (env : ParseEnv) {options : List UInt16} {size : Nat}
    (hsize : options.length < size) :
    StaysInsideBehindName env options size <->
      Fits env false 0 ((options.dropWhile fun c => c != unit ' ').dropWhile isspace) := by
  have hskip : skipBelow (fun c => c != unit ' ') size options 0
      = skipWhile (fun c => c != unit ' ') (options.drop 0) 0 := skipBelow_eq (by omega)
  unfold StaysInsideBehindName skipName
  rw [hskip]
  cases hname : skipWhile (fun c => c != unit ' ') (options.drop 0) 0 with
  | none =>
      have hnil : options.dropWhile (fun c => c != unit ' ') = [] :=
        skipWhile_eq_none_iff.mp hname
      rw [hnil]
      refine ⟨fun hstays => ?_, fun hfits => nomatch hfits⟩
      rcases hstays with ⟨rest, size', h, -⟩
      cases h
  | some i =>
      have hdrop : options.drop i = options.dropWhile fun c => c != unit ' ' :=
        drop_of_skipWhile hname
      rcases skipWhile_eq_some hname with ⟨run, c, rest, htext, -, -, hi⟩
      have hlength := congrArg List.length htext
      rw [List.drop_zero, List.length_append, List.length_cons] at hlength
      have hleft : (options.drop i).length < size - i := by
        rw [List.length_drop]
        omega
      rw [← hdrop, ← staysInside_iff env hleft]
      constructor
      · rintro ⟨rest', size', h, hstays⟩
        cases h
        exact hstays
      · exact fun hstays => ⟨_, _, rfl, hstays⟩

/-- The buffer is not left exactly if the text fits, from its beginning or behind the name. -/
theorem parseArgs_inside_iff (options : LoadOptions) (env : ParseEnv) :
    (StaysInside env options.text options.size <->
      Fits env false 0 (options.text.dropWhile isspace)) ∧
    (StaysInsideBehindName env options.text options.size <->
      Fits env false 0
        ((options.text.dropWhile fun c => c != unit ' ').dropWhile isspace)) := by
  have hpos : 0 < options.text.length := List.length_pos_of_mem options.terminated
  have hsize : options.text.length < options.size := by
    have h := options.text_length
    omega
  exact ⟨staysInside_iff env hsize, staysInsideBehindName_iff env hsize⟩

def releaseEnv : ParseEnv where
  runtimeSettings := false
  alloc := fun _ => true
  cmdlineAlloc := true

/-- `L"k -a 0x1000"` and its NUL. -/
def lastArgument : LoadOptions where
  text := units "k -a 0x1000" ++ [0]
  size := 24
  size_lt := by decide
  text_length := by decide
  terminated := by decide

/-- The NUL behind the argument is taken for its end, and the loop goes on behind it. -/
theorem lastArgument_leaves :
    parseArgs releaseEnv 2 (units " -a 0x1000" ++ [0]) 23 = some ParseEnd.outside ∧
      ¬ StaysInsideBehindName releaseEnv lastArgument.text lastArgument.size := by
  have hname : skipName lastArgument.text lastArgument.size
      = some (units " -a 0x1000" ++ [0], 23) := by
    decide
  have hrun : forall fuel, parseArgs releaseEnv (fuel + 2) (units " -a 0x1000" ++ [0]) 23
      = some ParseEnd.outside := fun fuel => rfl
  refine ⟨hrun 0, ?_⟩
  rintro ⟨rest, size', h, fuel, parsed, hreturns⟩
  rw [hname] at h
  cases h
  match fuel with
  | 0 => cases hreturns
  | 1 => cases hreturns
  | fuel + 2 =>
      rw [hrun fuel] at hreturns
      cases hreturns

end Efilinux
end BootableUefi
