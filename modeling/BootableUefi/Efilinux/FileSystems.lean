import Mathlib.Data.List.Basic
import Mathlib.Data.List.Count
import BootableUefi.Firmware.Status

/-!
# The table of file systems

`fs/fs.c`: `fs_init` opens a volume for each file system and keeps the handles
in `fs_devices`; `fs_close` closes what the table holds, and `fs_exit` frees the
table as well.  Volumes are numbered in the order in which they are opened.
-/

namespace BootableUefi
namespace Efilinux

open Firmware

/-- What the firmware answers to `fs_init`; handles are as wide as `UINTN`. -/
structure FsAnswers where
  arch : Arch
  /-- The first call of `locate_handle`, and the size it asks for. -/
  locateSize : EfiStatus
  size : Nat
  bufPool : Bool
  devicesPool : Bool
  /-- The second call, whose status survives only if there is no handle. -/
  locate : EfiStatus
  handleProtocol : Nat -> EfiStatus
  volumeOpen : Nat -> EfiStatus

/-- What `fs_devices` points to: NULL, or a table whose first entries are filled in. -/
inductive FsTable where
  | null
  | allocated (filled : Nat)
  | freed (filled : Nat)
  deriving DecidableEq, Repr

inductive EntryState where
  | filled
  | unfilled
  | freed
  deriving DecidableEq, Repr

def FsTable.entry (index : Nat) : FsTable -> EntryState
  | null => EntryState.unfilled
  | allocated filled => if index < filled then EntryState.filled else EntryState.unfilled
  | freed _ => EntryState.freed

/-- The entry's handle is the one of its volume; a freed table still has its contents. -/
def FsTable.holds (index : Nat) : FsTable -> Bool
  | null => false
  | allocated filled => index < filled
  | freed filled => index < filled

def FsTable.free : FsTable -> FsTable
  | null => null
  | allocated filled => freed filled
  | freed filled => freed filled

inductive FsEvent where
  | openVolume (volume : Nat)
  | readEntry (index : Nat) (state : EntryState)
  | close (volume : Nat)
  deriving DecidableEq, Repr

structure FsState where
  nrFsDevices : Nat
  fsDevices : FsTable
  events : List FsEvent
  deriving DecidableEq, Repr

/-- The handle in one entry is read, and the volume it stands for is closed. -/
def closeEntry (table : FsTable) (index : Nat) : List FsEvent :=
  FsEvent.readEntry index (table.entry index) ::
    if table.holds index then [FsEvent.close index] else []

def closeEntries (table : FsTable) (count : Nat) : List FsEvent :=
  (List.range count).flatMap (closeEntry table)

/-- The label `close_handles` of `fs_init`. -/
def closeHandles (count : Nat) (s : FsState) : FsState where
  nrFsDevices := s.nrFsDevices
  fsDevices := s.fsDevices.free
  events := s.events ++ closeEntries s.fsDevices count

/-- The loop of `fs_init`: the number of rounds left, and `i`. -/
def openVolumes (answers : FsAnswers) : Nat -> Nat -> FsState -> EfiStatus × FsState
  | 0, _, s => (EfiStatus.success, s)
  | left + 1, i, s =>
      if answers.handleProtocol i ≠ EfiStatus.success then
        (answers.handleProtocol i, closeHandles i s)
      else if answers.volumeOpen i ≠ EfiStatus.success then
        (answers.volumeOpen i, closeHandles i s)
      else
        openVolumes answers left (i + 1)
          { s with
            fsDevices := FsTable.allocated (i + 1)
            events := s.events ++ [FsEvent.openVolume i] }

/-- Both globals before `fs_init` runs. -/
def FsState.start : FsState where
  nrFsDevices := 0
  fsDevices := FsTable.null
  events := []

def fsInit (answers : FsAnswers) : EfiStatus × FsState :=
  if answers.locateSize ≠ EfiStatus.success ∧ answers.size = 0 then
    (answers.locateSize, FsState.start)
  else if !answers.bufPool then
    (EfiStatus.outOfResources, FsState.start)
  else
    let nr := answers.size / answers.arch.sizeofUintn
    if !answers.devicesPool then
      (EfiStatus.outOfResources, { FsState.start with nrFsDevices := nr })
    else
      let s : FsState :=
        { nrFsDevices := nr, fsDevices := FsTable.allocated 0, events := [] }
      if nr = 0 then (answers.locate, s) else openVolumes answers nr 0 s

def fsClose (s : FsState) : FsState :=
  { s with events := s.events ++ closeEntries s.fsDevices s.nrFsDevices }

def fsExit (s : FsState) : FsState :=
  { fsClose s with fsDevices := s.fsDevices.free }

inductive FsCall where
  | close
  | exit
  deriving DecidableEq, Repr

def FsCall.run (s : FsState) : FsCall -> FsState
  | close => fsClose s
  | exit => fsExit s

def runCalls (calls : List FsCall) (s : FsState) : FsState :=
  calls.foldl FsCall.run s

/--
Each volume is closed at most once, and every entry that is read is filled in,
in a table that is not freed.
-/
structure SoundEvents (events : List FsEvent) : Prop where
  closedOnce : forall volume, events.count (FsEvent.close volume) ≤ 1
  reads : forall index state, FsEvent.readEntry index state ∈ events ->
    state = EntryState.filled

/-!
# Inputs of `fs_init`
-/

namespace FsAnswers

variable (answers : FsAnswers)

/-- The number of entries of the table, if `fs_init` gets to it. -/
def entries : Nat :=
  if answers.locateSize ≠ EfiStatus.success ∧ answers.size = 0 then 0
  else if !answers.bufPool then 0
  else answers.size / answers.arch.sizeofUintn

def Opens (volume : Nat) : Prop :=
  answers.handleProtocol volume = EfiStatus.success ∧
    answers.volumeOpen volume = EfiStatus.success

def FillsTable : Prop :=
  answers.devicesPool = true ∧ forall volume, volume < answers.entries -> answers.Opens volume

instance (volume : Nat) : Decidable (answers.Opens volume) :=
  inferInstanceAs (Decidable (_ ∧ _))

instance : Decidable answers.FillsTable :=
  inferInstanceAs (Decidable (_ ∧ _))

end FsAnswers

/-!
# Closing the entries of a table
-/

theorem mem_closeEntry_read {table : FsTable} {i index : Nat} {state : EntryState} :
    FsEvent.readEntry index state ∈ closeEntry table i <->
      index = i ∧ state = table.entry i := by
  unfold closeEntry
  cases table.holds i <;> simp

theorem mem_closeEntries_read {table : FsTable} {count index : Nat} {state : EntryState} :
    FsEvent.readEntry index state ∈ closeEntries table count <->
      index < count ∧ state = table.entry index := by
  simp only [closeEntries, List.mem_flatMap, List.mem_range, mem_closeEntry_read]
  constructor
  · rintro ⟨i, hi, rfl, hstate⟩
    exact ⟨hi, hstate⟩
  · rintro ⟨hindex, hstate⟩
    exact ⟨index, hindex, rfl, hstate⟩

theorem closeEntries_succ (table : FsTable) (count : Nat) :
    closeEntries table (count + 1) = closeEntries table count ++ closeEntry table count := by
  simp [closeEntries, List.range_succ]

theorem count_closeEntry (table : FsTable) (i volume : Nat) :
    (closeEntry table i).count (FsEvent.close volume) =
      if volume = i ∧ table.holds i = true then 1 else 0 := by
  unfold closeEntry
  cases table.holds i with
  | false => simp
  | true =>
      by_cases heq : volume = i
      · simp [heq]
      · have hne : i ≠ volume := fun h => heq h.symm
        simp [heq, hne]

theorem count_closeEntries (table : FsTable) (count volume : Nat) :
    (closeEntries table count).count (FsEvent.close volume) =
      if volume < count ∧ table.holds volume = true then 1 else 0 := by
  induction count with
  | zero => simp [closeEntries]
  | succ count ih =>
      rw [closeEntries_succ, List.count_append, ih, count_closeEntry]
      rcases Nat.lt_trichotomy volume count with hlt | heq | hgt
      · have hne : volume ≠ count := Nat.ne_of_lt hlt
        have hlt' : volume < count + 1 := Nat.lt_succ_of_lt hlt
        simp [hlt, hne, hlt']
      · simp [heq]
      · have hne : volume ≠ count := Nat.ne_of_gt hgt
        have hnot : ¬ volume < count := Nat.lt_asymm hgt
        have hnot' : ¬ volume < count + 1 := Nat.not_lt.mpr hgt
        simp [hne, hnot, hnot']

/-!
# Sound events
-/

theorem SoundEvents.left {xs ys : List FsEvent} (h : SoundEvents (xs ++ ys)) :
    SoundEvents xs where
  closedOnce := by
    intro volume
    have honce := h.closedOnce volume
    rw [List.count_append] at honce
    exact Nat.le_trans (Nat.le_add_right _ _) honce
  reads := fun index state hread => h.reads index state (List.mem_append_left ys hread)

theorem FsCall.run_events (s : FsState) (call : FsCall) :
    (call.run s).events = s.events ++ closeEntries s.fsDevices s.nrFsDevices := by
  cases call <;> rfl

theorem FsCall.run_nrFsDevices (s : FsState) (call : FsCall) :
    (call.run s).nrFsDevices = s.nrFsDevices := by
  cases call <;> rfl

theorem runCalls_events (calls : List FsCall) (s : FsState) :
    exists more, (runCalls calls s).events = s.events ++ more := by
  induction calls generalizing s with
  | nil => exact ⟨[], (List.append_nil _).symm⟩
  | cons call calls ih =>
      rcases ih (call.run s) with ⟨more, hmore⟩
      refine ⟨closeEntries s.fsDevices s.nrFsDevices ++ more, ?_⟩
      rw [← List.append_assoc, ← FsCall.run_events s call]
      exact hmore

theorem SoundEvents.of_runCalls {calls : List FsCall} {s : FsState}
    (h : SoundEvents (runCalls calls s).events) : SoundEvents s.events := by
  rcases runCalls_events calls s with ⟨more, hmore⟩
  rw [hmore] at h
  exact h.left

theorem runCalls_events_of_empty (calls : List FsCall) {s : FsState}
    (h : s.nrFsDevices = 0) : (runCalls calls s).events = s.events := by
  induction calls generalizing s with
  | nil => rfl
  | cons call calls ih =>
      have hnr : (call.run s).nrFsDevices = 0 := by rw [FsCall.run_nrFsDevices, h]
      have hrest := ih hnr
      rw [FsCall.run_events, h] at hrest
      have hnone : closeEntries s.fsDevices 0 = [] := rfl
      rw [hnone, List.append_nil] at hrest
      exact hrest

theorem eq_nil_of_sound {calls : List FsCall} {s : FsState} (hpos : 0 < s.nrFsDevices)
    (hentry : s.fsDevices.entry 0 ≠ EntryState.filled)
    (h : SoundEvents (runCalls calls s).events) : calls = [] := by
  cases calls with
  | nil => rfl
  | cons call calls =>
      have hfirst : SoundEvents (call.run s).events := SoundEvents.of_runCalls h
      rw [FsCall.run_events] at hfirst
      have hread := mem_closeEntries_read.mpr
        ⟨hpos, (rfl : s.fsDevices.entry 0 = s.fsDevices.entry 0)⟩
      exact absurd (hfirst.reads 0 _ (List.mem_append_right s.events hread)) hentry

/-!
# What `fs_init` leaves
-/

def openEvents (count : Nat) : List FsEvent :=
  (List.range count).map FsEvent.openVolume

theorem count_openEvents (count volume : Nat) :
    (openEvents count).count (FsEvent.close volume) = 0 := by
  simp [openEvents, List.count_eq_zero]

theorem sound_openEvents (count : Nat) : SoundEvents (openEvents count) where
  closedOnce := by
    intro volume
    rw [count_openEvents]
    exact Nat.zero_le 1
  reads := by
    intro index state hread
    simp [openEvents] at hread

theorem sound_openEvents_close (count : Nat) :
    SoundEvents (openEvents count ++ closeEntries (FsTable.allocated count) count) where
  closedOnce := by
    intro volume
    rw [List.count_append, count_openEvents, count_closeEntries]
    split <;> decide
  reads := by
    intro index state hread
    rcases List.mem_append.mp hread with hopen | hclose
    · simp [openEvents] at hopen
    · rcases mem_closeEntries_read.mp hclose with ⟨hlt, hstate⟩
      rw [hstate]
      exact if_pos hlt

inductive FsInitOutcome (answers : FsAnswers) : FsState -> Prop where
  | empty {s : FsState} (hentries : answers.entries = 0) (hnr : s.nrFsDevices = 0)
      (hevents : s.events = []) : FsInitOutcome answers s
  | noTable (hpos : 0 < answers.entries) (hpool : answers.devicesPool = false) :
      FsInitOutcome answers
        { nrFsDevices := answers.entries, fsDevices := FsTable.null, events := [] }
  | closed {i : Nat} (hlt : i < answers.entries) (hfails : ¬ answers.Opens i) :
      FsInitOutcome answers
        { nrFsDevices := answers.entries
          fsDevices := FsTable.freed i
          events := openEvents i ++ closeEntries (FsTable.allocated i) i }
  | complete (hpos : 0 < answers.entries) (hfills : answers.FillsTable) :
      FsInitOutcome answers
        { nrFsDevices := answers.entries
          fsDevices := FsTable.allocated answers.entries
          events := openEvents answers.entries }

/-- The state in which a round of the loop of `fs_init` starts. -/
def loopState (n i : Nat) : FsState where
  nrFsDevices := n
  fsDevices := FsTable.allocated i
  events := openEvents i

theorem openEvents_succ (i : Nat) :
    openEvents (i + 1) = openEvents i ++ [FsEvent.openVolume i] := by
  simp [openEvents, List.range_succ]

/-- The loop fills the table, or stops at a volume and closes the ones before it. -/
theorem openVolumes_cases (answers : FsAnswers) (n left i : Nat) :
    ((forall volume, i ≤ volume -> volume < i + left -> answers.Opens volume) ∧
      (openVolumes answers left i (loopState n i)).2 = loopState n (i + left)) ∨
    exists j, j < i + left ∧ ¬ answers.Opens j ∧
      (openVolumes answers left i (loopState n i)).2 =
        { nrFsDevices := n
          fsDevices := FsTable.freed j
          events := openEvents j ++ closeEntries (FsTable.allocated j) j } := by
  induction left generalizing i with
  | zero =>
      refine Or.inl ⟨?_, rfl⟩
      intro volume hle hlt
      exact absurd hlt (Nat.not_lt.mpr hle)
  | succ left ih =>
      have hhere : i < i + (left + 1) := Nat.lt_add_of_pos_right (Nat.succ_pos left)
      have hshift : i + 1 + left = i + (left + 1) := by
        rw [Nat.add_assoc, Nat.add_comm 1 left]
      by_cases hopens : answers.Opens i
      · have hround : openVolumes answers (left + 1) i (loopState n i) =
            openVolumes answers left (i + 1) (loopState n (i + 1)) := by
          rw [openVolumes, if_neg (not_not.mpr hopens.1), if_neg (not_not.mpr hopens.2),
            loopState, loopState, openEvents_succ]
        rw [hround]
        rcases ih (i + 1) with ⟨hall, hdone⟩ | ⟨j, hlt, hfails, hstopped⟩
        · rw [hshift] at hall hdone
          refine Or.inl ⟨?_, hdone⟩
          intro volume hle hlt
          rcases Nat.eq_or_lt_of_le hle with rfl | hafter
          · exact hopens
          · exact hall volume hafter hlt
        · rw [hshift] at hlt
          exact Or.inr ⟨j, hlt, hfails, hstopped⟩
      · refine Or.inr ⟨i, hhere, hopens, ?_⟩
        by_cases hprotocol : answers.handleProtocol i = EfiStatus.success
        · have hvolume : answers.volumeOpen i ≠ EfiStatus.success :=
            fun h => hopens ⟨hprotocol, h⟩
          rw [openVolumes, if_neg (not_not.mpr hprotocol), if_pos hvolume]
          rfl
        · rw [openVolumes, if_pos hprotocol]
          rfl

theorem fsInit_outcome (answers : FsAnswers) : FsInitOutcome answers (fsInit answers).2 := by
  unfold fsInit
  by_cases hnone : answers.locateSize ≠ EfiStatus.success ∧ answers.size = 0
  · rw [if_pos hnone]
    exact FsInitOutcome.empty (if_pos hnone) rfl rfl
  · rw [if_neg hnone]
    cases hbuf : answers.bufPool with
    | false =>
        have hentries : answers.entries = 0 := by
          simp [FsAnswers.entries, hnone, hbuf]
        exact FsInitOutcome.empty hentries rfl rfl
    | true =>
        have hentries : answers.entries = answers.size / answers.arch.sizeofUintn := by
          rw [FsAnswers.entries, if_neg hnone, hbuf]
          rfl
        dsimp only
        rw [← hentries]
        by_cases hzero : answers.entries = 0
        · rw [hzero]
          cases answers.devicesPool <;> exact FsInitOutcome.empty hzero rfl rfl
        · have hpos : 0 < answers.entries := Nat.pos_of_ne_zero hzero
          cases hpool : answers.devicesPool with
          | false => exact FsInitOutcome.noTable hpos hpool
          | true =>
              have hloop := openVolumes_cases answers answers.entries answers.entries 0
              rw [Nat.zero_add] at hloop
              simp only [Bool.not_true, Bool.false_eq_true, if_false, if_neg hzero]
              rcases hloop with ⟨hall, hdone⟩ | ⟨j, hlt, hfails, hstopped⟩
              · have hfills : answers.FillsTable :=
                  ⟨hpool, fun volume hlt => hall volume (Nat.zero_le _) hlt⟩
                have hcomplete := FsInitOutcome.complete hpos hfills
                rw [show FsState.mk answers.entries (FsTable.allocated 0) [] =
                  loopState answers.entries 0 from rfl, hdone]
                exact hcomplete
              · rw [show FsState.mk answers.entries (FsTable.allocated 0) [] =
                  loopState answers.entries 0 from rfl, hstopped]
                exact FsInitOutcome.closed hlt hfails

/-- After a call through a full table a second one closes a volume again, or reads a freed entry. -/
theorem not_sound_of_second {n : Nat} {rest : List FsCall} (hpos : 0 < n) (call : FsCall)
    (hrest : rest ≠ []) :
    ¬ SoundEvents (runCalls (call :: rest) (loopState n n)).events := by
  intro h
  cases call with
  | exit => exact hrest (eq_nil_of_sound hpos (fun hentry => by cases hentry) h)
  | close =>
      cases rest with
      | nil => exact hrest rfl
      | cons next rest =>
          have htwice : SoundEvents (FsCall.run (fsClose (loopState n n)) next).events :=
            SoundEvents.of_runCalls h
          have honce := htwice.closedOnce 0
          rw [FsCall.run_events] at honce
          simp [fsClose, loopState, List.count_append, count_openEvents, count_closeEntries,
            FsTable.holds, hpos] at honce

/-!
# Calls after `fs_init`
-/

/--
After `fs_init` any calls are sound when there are no entries, one call is when
the table is filled in, and only no call at all is otherwise.
-/
theorem runCalls_sound_iff (answers : FsAnswers) (calls : List FsCall) :
    SoundEvents (runCalls calls (fsInit answers).2).events <->
      answers.entries = 0 ∨ calls = [] ∨ answers.FillsTable ∧ calls.length ≤ 1 := by
  have houtcome := fsInit_outcome answers
  generalize (fsInit answers).2 = s at houtcome ⊢
  cases houtcome with
  | empty hentries hnr hevents =>
      have hsound : SoundEvents (runCalls calls s).events := by
        rw [runCalls_events_of_empty calls hnr, hevents]
        exact sound_openEvents 0
      exact ⟨fun _ => Or.inl hentries, fun _ => hsound⟩
  | noTable hpos hpool =>
      constructor
      · intro hsound
        exact Or.inr (Or.inl (eq_nil_of_sound hpos (fun hentry => by cases hentry) hsound))
      · rintro (hzero | rfl | ⟨hfills, -⟩)
        · exact absurd hzero (Nat.ne_of_gt hpos)
        · exact sound_openEvents 0
        · have hfound := hfills.1
          rw [hpool] at hfound
          cases hfound
  | closed hlt hfails =>
      have hpos := Nat.zero_lt_of_lt hlt
      constructor
      · intro hsound
        exact Or.inr (Or.inl (eq_nil_of_sound hpos (fun hentry => by cases hentry) hsound))
      · rintro (hzero | rfl | ⟨hfills, -⟩)
        · exact absurd hzero (Nat.ne_of_gt hpos)
        · exact sound_openEvents_close _
        · exact absurd (hfills.2 _ hlt) hfails
  | complete hpos hfills =>
      constructor
      · intro hsound
        refine Or.inr ?_
        cases calls with
        | nil => exact Or.inl rfl
        | cons call rest =>
            cases rest with
            | nil => exact Or.inr ⟨hfills, Nat.le_refl 1⟩
            | cons next rest =>
                exact absurd hsound (not_sound_of_second hpos call (List.cons_ne_nil next rest))
      · rintro (hzero | rfl | ⟨-, hlength⟩)
        · exact absurd hzero (Nat.ne_of_gt hpos)
        · exact sound_openEvents _
        · cases calls with
          | nil => exact sound_openEvents _
          | cons call rest =>
              have hnil : rest = [] := List.length_eq_zero_iff.mp (Nat.le_zero.mp
                (Nat.le_of_succ_le_succ hlength))
              rw [hnil]
              have hevents : (runCalls [call]
                  { nrFsDevices := answers.entries
                    fsDevices := FsTable.allocated answers.entries
                    events := openEvents answers.entries }).events =
                  openEvents answers.entries ++
                    closeEntries (FsTable.allocated answers.entries) answers.entries :=
                FsCall.run_events _ call
              rw [hevents]
              exact sound_openEvents_close _

end Efilinux
end BootableUefi
