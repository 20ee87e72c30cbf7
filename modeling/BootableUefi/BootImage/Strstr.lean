import BootableUefi.Foundation.Occurrences
import BootableUefi.BootImage.Start
import BootableUefi.Efilinux.Acpi

/-!
# Searching a string

The `strstr` of the loader, with the units it reads.  It keeps the length of the
needle in an `int`, which `strncmpa` then takes for a `UINTN`.
-/

namespace BootableUefi
namespace BootImage

open Firmware Foundation Efilinux

def strncmpaReads : (Nat -> UInt8) -> List UInt8 -> Nat -> Nat
  | _, _, 0 => 1
  | _, [], _ + 1 => 1
  | s1, c :: cs, len + 1 =>
      if s1 0 ≠ c then 1 else strncmpaReads (fun i => s1 (i + 1)) cs len + 1

/-- What a search has found, and the places of the haystack that it has read. -/
structure Search where
  word : Option Nat
  reads : List Nat

def turnReads (haystack : Nat -> UInt8) (needle : List UInt8) (len p : Nat) : List Nat :=
  p :: (List.range (strncmpaReads (fun i => haystack (p + i)) needle len)).map fun i => p + i

/-- The loop at place `p`; the fuel bounds the places it comes to. -/
def strstrLoop (haystack : Nat -> UInt8) (needle : List UInt8) (len : Nat) :
    Nat -> Nat -> Search -> Option Search
  | 0, _, _ => none
  | fuel + 1, p, search =>
      if haystack p ≠ 0 then
        let reads := search.reads ++ turnReads haystack needle len p
        if strncmpa (fun i => haystack (p + i)) needle len = 0 then
          some { word := some p, reads := reads }
        else
          strstrLoop haystack needle len fuel (p + 1) { word := none, reads := reads }
      else
        some { search with reads := search.reads ++ [p] }

/-- `len`: the length of the needle as an `int`. -/
def needleLen (needle : List UInt8) : Int :=
  toInt needle.length

def intToUintn (arch : Arch) (n : Int) : Nat :=
  (n % 2 ^ arch.uintnBits).toNat

/-- `strstr`, for a needle that is given by its units before the NUL. -/
def strstrIn (arch : Arch) (fuel : Nat) (haystack : Nat -> UInt8) (needle : List UInt8) :
    Option Search :=
  let len := needleLen needle
  let search := { word := none, reads := [] }
  if len = 0 then
    some search
  else
    strstrLoop haystack needle (intToUintn arch len) fuel 0 search

/-!
# What a comparison says
-/

theorem strncmpa_eq_zero_iff_carries {needle : List UInt8} (hneedle : 0 ∉ needle)
    (s1 : Nat -> UInt8) (len : Nat) :
    strncmpa s1 needle len = 0 <-> Carries s1 ((needle ++ [0]).take len) := by
  induction needle generalizing s1 len with
  | nil =>
      cases len with
      | zero => simp [strncmpa, Carries]
      | succ len =>
          have hzero : (s1 0).toNat = 0 <-> s1 0 = 0 := by
            rw [← UInt8.toNat_inj]
            rfl
          simp [strncmpa, Carries, hzero]
  | cons c cs ih =>
      rw [List.mem_cons, not_or] at hneedle
      cases len with
      | zero => simp [strncmpa, Carries]
      | succ len =>
          rw [strncmpa, List.cons_append, List.take_succ_cons]
          unfold Carries
          by_cases hfirst : s1 0 = c
          · rw [if_neg (not_not.mpr hfirst), ih hneedle.2]
            simp [hfirst]
          · have hdiff : ((s1 0).toNat : Int) - c.toNat ≠ 0 := by
              intro hzero
              apply hfirst
              rw [← UInt8.toNat_inj]
              omega
            rw [if_pos hfirst]
            simp [hdiff, hfirst]

/-- What a comparison over `len` units accepts; one longer than the needle, only its end. -/
def Accepts (needle : List UInt8) (len : Nat) (tail : List UInt8) : Prop :=
  if len ≤ needle.length then needle.take len <+: tail else tail = needle

section Turns

variable {haystack : Nat -> UInt8} {needle tail : List UInt8} {len p : Nat}

theorem strncmpa_eq_zero_iff_accepts (hneedle : 0 ∉ needle) (hreads : ReadsAs 0 haystack p tail)
    (len : Nat) :
    strncmpa (fun i => haystack (p + i)) needle len = 0 <-> Accepts needle len tail := by
  rw [strncmpa_eq_zero_iff_carries hneedle]
  unfold Accepts
  split
  · rename_i hshort
    rw [List.take_append_of_le_length hshort]
    exact carries_iff_of_readsAs hreads fun h => hneedle (List.mem_of_mem_take h)
  · rename_i hlong
    rw [List.take_of_length_le]
    · exact carries_end_iff_of_readsAs hreads hneedle
    · rw [List.length_append, List.length_singleton]
      omega

theorem strncmpaReads_le (hneedle : 0 ∉ needle) (hreads : ReadsAs 0 haystack p tail)
    (len : Nat) :
    strncmpaReads (fun i => haystack (p + i)) needle len ≤ tail.length + 1 := by
  induction needle generalizing len p tail with
  | nil => cases len <;> simp [strncmpaReads]
  | cons c cs ih =>
      rw [List.mem_cons, not_or] at hneedle
      cases len with
      | zero => simp [strncmpaReads]
      | succ len =>
          rw [strncmpaReads]
          split
          · exact Nat.le_add_left 1 _
          · rename_i hsame
            have hfirst : haystack p = c := not_not.mp hsame
            cases tail with
            | nil =>
                have hend : haystack p = 0 := hreads
                exact absurd (hend.symm.trans hfirst) hneedle.1
            | cons d tail =>
                have hshift : (fun i => haystack (p + (i + 1))) =
                    fun i => haystack (p + 1 + i) := by
                  funext i
                  congr 1
                  omega
                rw [hshift, List.length_cons]
                exact Nat.succ_le_succ (ih hneedle.2 hreads.2.2 len)

theorem turnReads_le (hneedle : 0 ∉ needle) (hreads : ReadsAs 0 haystack p tail) {len i : Nat}
    (hi : i ∈ turnReads haystack needle len p) : i ≤ p + tail.length := by
  rcases List.mem_cons.mp hi with rfl | hi
  · exact Nat.le_add_right i _
  · rcases List.mem_map.mp hi with ⟨k, hk, rfl⟩
    have hlast := strncmpaReads_le hneedle hreads len
    have hlt := List.mem_range.mp hk
    omega

/-- The loop has stopped at the first tail that is accepted, and read no further than the end. -/
structure SearchEnds (needle : List UInt8) (len p : Nat) (tail : List UInt8)
    (before after : Search) : Prop where
  found : exists i, FirstTail (Accepts needle len) tail i ∧ after.word = i.map fun i => p + i
  reads : forall i, i ∈ after.reads -> i ∈ before.reads ∨ i ≤ p + tail.length

theorem strstrLoop_ends (hneedle : 0 ∉ needle) {fuel : Nat} (hfuel : tail.length < fuel)
    (hreads : ReadsAs 0 haystack p tail) {search : Search} (hword : search.word = none) :
    exists after, strstrLoop haystack needle len fuel p search = some after ∧
      SearchEnds needle len p tail search after := by
  induction fuel generalizing p tail search with
  | zero => exact absurd hfuel (Nat.not_lt_zero _)
  | succ fuel ih =>
      rw [strstrLoop]
      dsimp only
      cases tail with
      | nil =>
          have hend : haystack p = 0 := hreads
          rw [if_neg (not_not.mpr hend)]
          refine ⟨_, rfl, ⟨none, firstTail_nil, hword⟩, ?_⟩
          intro i hi
          rcases List.mem_append.mp hi with hold | hnew
          · exact Or.inl hold
          · exact Or.inr (Nat.le_of_eq (List.mem_singleton.mp hnew))
      | cons c cs =>
          have haccepts := strncmpa_eq_zero_iff_accepts hneedle hreads len
          have hne : haystack p ≠ 0 := hreads.1 ▸ hreads.2.1
          rw [if_pos hne]
          have hturn : forall i, i ∈ search.reads ++ turnReads haystack needle len p ->
              i ∈ search.reads ∨ i ≤ p + (c :: cs).length := by
            intro i hi
            exact (List.mem_append.mp hi).imp id fun hnew => turnReads_le hneedle hreads hnew
          by_cases hfound : Accepts needle len (c :: cs)
          · rw [if_pos (haccepts.mpr hfound)]
            exact ⟨_, rfl, ⟨some 0, firstTail_here hfound, rfl⟩, hturn⟩
          · rw [if_neg fun h => hfound (haccepts.mp h)]
            let next : Search :=
              { word := none, reads := search.reads ++ turnReads haystack needle len p }
            have hnext : next.word = none := rfl
            rcases ih (Nat.lt_of_succ_lt_succ hfuel) hreads.2.2 hnext with ⟨after, hrun, hends⟩
            rcases hends.found with ⟨i, hi, hplace⟩
            refine ⟨after, hrun, ⟨_, firstTail_later hfound hi, ?_⟩, ?_⟩
            · rw [hplace, Option.map_map]
              congr 1
              funext k
              change p + 1 + k = p + (k + 1)
              omega
            · intro k hk
              rcases hends.reads k hk with hold | hnew
              · exact hturn k hold
              · rw [List.length_cons]
                exact Or.inr (by omega)

end Turns

/-!
# The search
-/

structure Needle (arch : Arch) where
  text : List UInt8
  nonempty : text ≠ []
  no_nul : 0 ∉ text
  fits : text.length < 2 ^ arch.uintnBits

/-- The leftmost occurrence is found in every string, and nothing is read behind it. -/
def Searches (arch : Arch) (needle : List UInt8) : Prop :=
  forall (haystack : Nat -> UInt8) (text : List UInt8) (fuel : Nat),
    ReadsAs 0 haystack 0 text -> text.length < fuel ->
    exists search, strstrIn arch fuel haystack needle = some search ∧
      Leftmost needle text search.word ∧ forall i, i ∈ search.reads -> i ≤ text.length

theorem strstrIn_ends {arch : Arch} {needle : List UInt8} (hneedle : 0 ∉ needle)
    (hlen : needleLen needle ≠ 0) {haystack : Nat -> UInt8} {text : List UInt8} {fuel : Nat}
    (hreads : ReadsAs 0 haystack 0 text) (hfuel : text.length < fuel) :
    exists search, strstrIn arch fuel haystack needle = some search ∧
      FirstTail (Accepts needle (intToUintn arch (needleLen needle))) text search.word ∧
      forall i, i ∈ search.reads -> i ≤ text.length := by
  let start : Search := { word := none, reads := [] }
  have hstart : start.word = none := rfl
  rcases strstrLoop_ends hneedle hfuel hreads hstart with ⟨search, hrun, hends⟩
  refine ⟨search, ?_, ?_, ?_⟩
  · unfold strstrIn
    dsimp only
    rw [if_neg hlen]
    exact hrun
  · rcases hends.found with ⟨i, hi, hword⟩
    have hplace : search.word = i := by
      rw [hword]
      cases i with
      | none => rfl
      | some i => exact congrArg some (Nat.zero_add i)
    rwa [hplace]
  · intro i hi
    rcases hends.reads i hi with hold | hnew
    · exact absurd hold List.not_mem_nil
    · rwa [Nat.zero_add] at hnew

theorem accepts_length (needle tail : List UInt8) :
    Accepts needle needle.length tail <-> needle <+: tail := by
  unfold Accepts
  rw [if_pos (Nat.le_refl _), List.take_length]

theorem searches_of_len {arch : Arch} (needle : Needle arch)
    (hlen : intToUintn arch (needleLen needle.text) = needle.text.length) :
    Searches arch needle.text := by
  have hne : needleLen needle.text ≠ 0 := by
    intro hzero
    rw [hzero] at hlen
    exact needle.nonempty (List.eq_nil_of_length_eq_zero hlen.symm)
  intro haystack text fuel hreads hfuel
  rcases strstrIn_ends needle.no_nul hne hreads hfuel with ⟨search, hrun, hfirst, hlast⟩
  refine ⟨search, hrun, ?_, hlast⟩
  rw [leftmost_iff_firstTail needle.nonempty]
  rw [hlen] at hfirst
  have hsame : Accepts needle.text needle.text.length = fun tail => needle.text <+: tail := by
    funext tail
    exact propext (accepts_length needle.text tail)
  rwa [hsame] at hfirst

/-!
# Needles too long for an int
-/

theorem intToUintn_ia32 (n : Int) : intToUintn Arch.ia32 n = (n % 2 ^ 32).toNat := rfl

theorem intToUintn_x64 (n : Int) : intToUintn Arch.x64 n = (n % 2 ^ 64).toNat := rfl

theorem intToUintn_toInt_ia32 {n : Nat} (h : n < 2 ^ 32) :
    intToUintn Arch.ia32 (toInt n) = n := by
  rw [intToUintn_ia32]
  unfold toInt
  split <;> omega

theorem intToUintn_toInt_x64 {n : Nat} (hfits : n < 2 ^ 64)
    (h : n < 2 ^ 31 ∨ 2 ^ 64 - 2 ^ 31 ≤ n) : intToUintn Arch.x64 (toInt n) = n := by
  rw [intToUintn_x64]
  unfold toInt
  split <;> omega

/-- Between these the length is lost: it becomes 0, smaller, or larger. -/
theorem toInt_lost {n : Nat} (hlow : 2 ^ 31 ≤ n) (hhigh : n < 2 ^ 64 - 2 ^ 31) :
    toInt n = 0 ∨ (toInt n ≠ 0 ∧ 0 < intToUintn Arch.x64 (toInt n) ∧
      intToUintn Arch.x64 (toInt n) < n) ∨
      (toInt n ≠ 0 ∧ n < intToUintn Arch.x64 (toInt n)) := by
  rw [intToUintn_x64]
  unfold toInt
  split <;> omega

theorem readsAs_memOf {text : List UInt8} (htext : 0 ∉ text) :
    ReadsAs 0 (memOf text) 0 text := by
  apply readsAs_of_getD htext
  intro i
  rw [Nat.zero_add]
  rfl

theorem not_searches_of_text {arch : Arch} {needle text : List UInt8} (htext : 0 ∉ text)
    (h : forall search, strstrIn arch (text.length + 1) (memOf text) needle = some search ->
      ¬ Leftmost needle text search.word) : ¬ Searches arch needle := by
  intro hsearches
  rcases hsearches (memOf text) text (text.length + 1) (readsAs_memOf htext)
    (Nat.lt_succ_self _) with ⟨search, hrun, hleftmost, -⟩
  exact h search hrun hleftmost

theorem occursAt_zero_append (needle rest : List UInt8) : OccursAt needle (needle ++ rest) 0 :=
  List.prefix_append needle rest

theorem occursAt_self (needle : List UInt8) : OccursAt needle needle 0 :=
  List.prefix_rfl

theorem strstrIn_of_zero (arch : Arch) {needle : List UInt8} (hzero : needleLen needle = 0)
    (fuel : Nat) (haystack : Nat -> UInt8) :
    strstrIn arch fuel haystack needle = some { word := none, reads := [] } := by
  unfold strstrIn
  dsimp only
  rw [if_pos hzero]

/-- A length that becomes 0 finds nothing, not even the needle itself. -/
theorem not_searches_of_zero {arch : Arch} {needle : List UInt8} (hneedle : 0 ∉ needle)
    (hzero : needleLen needle = 0) : ¬ Searches arch needle := by
  apply not_searches_of_text hneedle
  intro search hrun hleftmost
  rw [strstrIn_of_zero arch hzero] at hrun
  cases hrun
  exact hleftmost 0 (occursAt_self needle)

/-- One that becomes smaller finds the front of the needle alone. -/
theorem not_searches_of_shorter {needle : Needle Arch.x64}
    (hne : needleLen needle.text ≠ 0) (hpos : 0 < intToUintn Arch.x64 (needleLen needle.text))
    (hshort : intToUintn Arch.x64 (needleLen needle.text) < needle.text.length) :
    ¬ Searches Arch.x64 needle.text := by
  generalize hlen : intToUintn Arch.x64 (needleLen needle.text) = len at hpos hshort
  have hfront : 0 ∉ needle.text.take len := fun h => needle.no_nul (List.mem_of_mem_take h)
  have hlength : (needle.text.take len).length = len := by
    rw [List.length_take]
    omega
  apply not_searches_of_text hfront
  intro search hrun hleftmost
  rcases strstrIn_ends needle.no_nul hne (readsAs_memOf hfront) (Nat.lt_succ_self _) with
    ⟨search', hrun', hfirst, -⟩
  rw [hrun] at hrun'
  cases hrun'
  rw [hlen] at hfirst
  cases hword : search.word with
  | none =>
      rw [hword] at hfirst
      apply hfirst 0 (by omega)
      unfold Accepts
      rw [if_pos (Nat.le_of_lt hshort), List.drop_zero]
  | some i =>
      rw [hword] at hleftmost
      have hle := hleftmost.1.length_le
      rw [List.length_drop] at hle
      omega

/-- One that becomes larger finds the needle at the end of a text only. -/
theorem not_searches_of_longer {needle : Needle Arch.x64}
    (hne : needleLen needle.text ≠ 0)
    (hlong : needle.text.length < intToUintn Arch.x64 (needleLen needle.text)) :
    ¬ Searches Arch.x64 needle.text := by
  have htext : 0 ∉ needle.text ++ [1] := by
    rw [List.mem_append, not_or]
    exact ⟨needle.no_nul, by decide⟩
  apply not_searches_of_text htext
  intro search hrun hleftmost
  rcases strstrIn_ends needle.no_nul hne (readsAs_memOf htext) (Nat.lt_succ_self _) with
    ⟨search', hrun', hfirst, -⟩
  rw [hrun] at hrun'
  cases hrun'
  have hzero : Leftmost needle.text (needle.text ++ [1]) (some 0) :=
    ⟨occursAt_zero_append needle.text [1], fun j hj => absurd hj (Nat.not_lt_zero j)⟩
  rw [leftmost_iff_firstTail needle.nonempty] at hleftmost hzero
  rw [hleftmost.unique hzero] at hfirst
  have haccepts := hfirst.2.1
  unfold Accepts at haccepts
  rw [if_neg (Nat.not_le_of_lt hlong), List.drop_zero] at haccepts
  have hlength := congrArg List.length haccepts
  rw [List.length_append, List.length_singleton] at hlength
  omega

/--
The search is right for every needle of a 32-bit machine, and on a 64-bit one for
those whose length is that of an `int`, sign-extended.
-/
theorem strstrIn_searches_iff (arch : Arch) (needle : Needle arch) :
    Searches arch needle.text <->
      arch = Arch.ia32 ∨ needle.text.length < 2 ^ 31 ∨
        2 ^ 64 - 2 ^ 31 ≤ needle.text.length := by
  cases arch with
  | ia32 =>
      refine ⟨fun _ => Or.inl rfl, fun _ => ?_⟩
      exact searches_of_len needle (intToUintn_toInt_ia32 needle.fits)
  | x64 =>
      constructor
      · intro hsearches
        right
        by_contra hlost
        rw [not_or] at hlost
        rcases toInt_lost (Nat.le_of_not_lt hlost.1) (Nat.lt_of_not_le hlost.2) with
          hzero | ⟨hne, hpos, hshort⟩ | ⟨hne, hlong⟩
        · exact not_searches_of_zero needle.no_nul hzero hsearches
        · exact not_searches_of_shorter hne hpos hshort hsearches
        · exact not_searches_of_longer hne hlong hsearches
      · intro hlength
        have hint : needle.text.length < 2 ^ 31 ∨ 2 ^ 64 - 2 ^ 31 ≤ needle.text.length :=
          hlength.resolve_left (by decide)
        exact searches_of_len needle (intToUintn_toInt_x64 needle.fits hint)

def longNeedle : Needle Arch.x64 where
  text := List.replicate (2 ^ 32) 0x61
  nonempty := by
    rw [ne_eq, List.replicate_eq_nil_iff]
    decide
  no_nul := by
    rw [List.mem_replicate]
    decide
  fits := by
    rw [List.length_replicate]
    decide

/-- It is not found in itself. -/
theorem strstrIn_longNeedle :
    ReadsAs 0 (memOf longNeedle.text) 0 longNeedle.text ∧
      strstrIn Arch.x64 (2 ^ 32 + 1) (memOf longNeedle.text) longNeedle.text =
        some { word := none, reads := [] } ∧
      OccursAt longNeedle.text longNeedle.text 0 ∧
      ¬ Searches Arch.x64 longNeedle.text := by
  have hzero : needleLen longNeedle.text = 0 := by
    unfold needleLen longNeedle
    rw [List.length_replicate]
    decide
  exact ⟨readsAs_memOf longNeedle.no_nul, strstrIn_of_zero Arch.x64 hzero _ _,
    occursAt_self longNeedle.text, not_searches_of_zero longNeedle.no_nul hzero⟩

/-!
# The switch of the watchdog
-/

theorem strstr_eq_true_iff (haystack needle : List UInt8) :
    strstr haystack needle = true <-> exists i, OccursAt needle haystack i := by
  unfold strstr OccursAt
  rw [List.any_eq_true]
  constructor
  · rintro ⟨tail, htail, hprefix⟩
    rw [List.mem_tails, List.suffix_iff_eq_drop] at htail
    rw [List.isPrefixOf_iff_prefix, htail] at hprefix
    exact ⟨_, hprefix⟩
  · rintro ⟨i, hoccurs⟩
    refine ⟨haystack.drop i, ?_, ?_⟩
    · rw [List.mem_tails]
      exact List.drop_suffix i haystack
    · rwa [List.isPrefixOf_iff_prefix]

theorem Searches.isSome_eq {arch : Arch} {needle : List UInt8} (h : Searches arch needle)
    {haystack : Nat -> UInt8} {text : List UInt8} {fuel : Nat}
    (hreads : ReadsAs 0 haystack 0 text) (hfuel : text.length < fuel) :
    (strstrIn arch fuel haystack needle).map (fun search => search.word.isSome) =
      some (strstr text needle) := by
  rcases h haystack text fuel hreads hfuel with ⟨search, hrun, hleftmost, -⟩
  rw [hrun, Option.map_some, Option.some_inj, Bool.eq_iff_iff, strstr_eq_true_iff]
  cases hword : search.word with
  | none =>
      rw [hword] at hleftmost
      have hnone : ¬ exists i, OccursAt needle text i := not_exists.mpr hleftmost
      simp [hnone]
  | some i =>
      rw [hword] at hleftmost
      exact ⟨fun _ => ⟨i, hleftmost.1⟩, fun _ => rfl⟩

def disableKernelWatchdog : List UInt8 :=
  ascii "disable_kernel_watchdog=1"

/-- The switch is seen wherever it stands in the command line. -/
theorem searches_disableKernelWatchdog (arch : Arch) : Searches arch disableKernelWatchdog := by
  have hlength : disableKernelWatchdog.length = 25 := by decide
  let needle : Needle arch :=
    { text := disableKernelWatchdog
      nonempty := by decide
      no_nul := by decide
      fits := by
        rw [hlength]
        cases arch <;> decide }
  have hshort : needle.text.length < 2 ^ 31 := by
    change disableKernelWatchdog.length < 2 ^ 31
    omega
  have hlen : intToUintn arch (needleLen needle.text) = needle.text.length := by
    cases arch with
    | ia32 => exact intToUintn_toInt_ia32 needle.fits
    | x64 => exact intToUintn_toInt_x64 needle.fits (Or.inl hshort)
  exact searches_of_len needle hlen

theorem watchdogEnabled_eq_false_iff (env : LoadEnv) (buf : Nat) (s : LoadState) :
    watchdogEnabled env buf s = false <->
      le32 s.image (buf + SetupHeader.cmdLinePtr) ≠ 0 ∧
        exists i, OccursAt disableKernelWatchdog
          (stringAt env s (le32 s.image (buf + SetupHeader.cmdLinePtr))) i := by
  rw [← strstr_eq_true_iff]
  unfold watchdogEnabled disableKernelWatchdog
  simp

end BootImage
end BootableUefi
