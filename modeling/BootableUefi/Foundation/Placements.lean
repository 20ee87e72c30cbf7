import BootableUefi.Foundation.Pages
import BootableUefi.Foundation.Pieces

/-!
# Writes to pages of their own

A write is placed in a run of pages if all its bytes are.  Writes that are
placed in runs an allocator has handed out one after the other do not touch each
other, so each can be read back once all have been made, and the pages that were
in use before keep their bytes.
-/

namespace Foundation

def ByteWrite.Covers (w : ByteWrite) (x : Nat) : Prop :=
  w.offset ≤ x ∧ x < w.offset + w.size

def ByteWrite.Apart (v w : ByteWrite) : Prop :=
  forall x, v.Covers x -> ¬ w.Covers x

section Writes

variable {ws : List ByteWrite} {w : ByteWrite} {device : Mem} {x : Nat}

theorem ByteWrite.apply_of_not_covers (h : ¬ w.Covers x) : w.apply device x = device x :=
  if_neg h

theorem applyAll_of_not_covers (h : forall w, w ∈ ws -> ¬ w.Covers x) :
    applyAll ws device x = device x := by
  induction ws generalizing device with
  | nil => rfl
  | cons v vs ih =>
      have hrest : applyAll vs (v.apply device) x = v.apply device x :=
        ih fun w hw => h w (List.mem_cons_of_mem v hw)
      exact hrest.trans (ByteWrite.apply_of_not_covers (h v List.mem_cons_self))

/-- Of writes that are apart, each can be read back. -/
theorem applyAll_of_apart (h : ws.Pairwise ByteWrite.Apart) (hw : w ∈ ws) {i : Nat}
    (hi : i < w.size) : applyAll ws device (w.offset + i) = w.data i := by
  induction ws generalizing device with
  | nil => cases hw
  | cons v vs ih =>
      rcases List.pairwise_cons.mp h with ⟨hfirst, hrest⟩
      rcases List.mem_cons.mp hw with rfl | hw
      · have hcovers : w.Covers (w.offset + i) := ⟨by omega, by omega⟩
        have hlater : applyAll vs (w.apply device) (w.offset + i) =
            w.apply device (w.offset + i) :=
          applyAll_of_not_covers fun v hv => hfirst v hv _ hcovers
        exact hlater.trans (ByteWrite.apply_of_mem hi)
      · exact ih hrest hw

/-- Writes to addresses from `start` on, seen from there. -/
theorem applyAll_shift (start : Nat) (ws : List ByteWrite) (device : Mem) (i : Nat) :
    applyAll (ws.map fun w => { w with offset := start + w.offset }) device (start + i) =
      applyAll ws (fun i => device (start + i)) i := by
  induction ws generalizing device with
  | nil => rfl
  | cons w ws ih =>
      have hfirst : (fun i => ByteWrite.apply { w with offset := start + w.offset } device
          (start + i)) = w.apply fun i => device (start + i) := by
        funext j
        unfold ByteWrite.apply
        dsimp only
        by_cases hin : w.offset ≤ j ∧ j < w.offset + w.size
        · rw [if_pos hin, if_pos ⟨by omega, by omega⟩]
          congr 1
          omega
        · rw [if_neg hin, if_neg fun h => hin ⟨by omega, by omega⟩]
      show applyAll (ws.map _) _ (start + i) = applyAll ws (w.apply _) i
      rw [← hfirst]
      exact ih _

theorem ByteWrite.Apart.symm {v w : ByteWrite} (h : v.Apart w) : w.Apart v :=
  fun x hw hv => h x hv hw

theorem ByteWrite.apply_comm {v w : ByteWrite} (h : v.Apart w) (device : Mem) :
    v.apply (w.apply device) = w.apply (v.apply device) := by
  funext x
  by_cases hv : v.Covers x
  · have hw : ¬ w.Covers x := h x hv
    rw [ByteWrite.apply_of_not_covers hw]
    exact (if_pos hv).trans (if_pos hv).symm
  · rw [ByteWrite.apply_of_not_covers hv]
    unfold ByteWrite.apply
    split
    · rfl
    · exact (if_neg hv).symm

/-- A write can be made after writes that it is apart from. -/
theorem applyAll_apply_comm (h : forall v, v ∈ ws -> w.Apart v) (device : Mem) :
    applyAll ws (w.apply device) = w.apply (applyAll ws device) := by
  induction ws generalizing device with
  | nil => rfl
  | cons v vs ih =>
      show applyAll vs (v.apply (w.apply device)) = w.apply (applyAll vs (v.apply device))
      rw [ByteWrite.apply_comm (h v List.mem_cons_self).symm]
      exact ih (fun u hu => h u (List.mem_cons_of_mem v hu)) _

section Stages

variable {Event : Type _} {first last : Event -> List ByteWrite}
  {main : Event -> Option ByteWrite}

def stageWrites (first : Event -> List ByteWrite) (main : Event -> Option ByteWrite)
    (last : Event -> List ByteWrite) (events : List Event) : List ByteWrite :=
  events.flatMap fun event => first event ++ (main event).toList ++ last event

/-- Where the main writes are apart from the others, these can all be made before them. -/
theorem applyAll_stageWrites {events : List Event}
    (h : forall v, v ∈ events.filterMap main ->
      forall w, w ∈ stageWrites first (fun _ => none) last events -> v.Apart w)
    (device : Mem) :
    applyAll (stageWrites first main last events) device =
      applyAll (events.filterMap main)
        (applyAll (stageWrites first (fun _ => none) last events) device) := by
  induction events generalizing device with
  | nil => rfl
  | cons event events ih =>
      have hrest : forall v, v ∈ events.filterMap main ->
          forall w, w ∈ stageWrites first (fun _ => none) last events -> v.Apart w := by
        intro v hv w hw
        apply h v _ w (List.mem_append_right _ hw)
        exact List.mem_filterMap.mpr ((List.mem_filterMap.mp hv).imp fun e he =>
          ⟨List.mem_cons_of_mem event he.1, he.2⟩)
      have hlater : stageWrites first main last (event :: events) =
          first event ++ (main event).toList ++ last event ++
            stageWrites first main last events := rfl
      have hothers : stageWrites first (fun _ => none) last (event :: events) =
          first event ++ (last event ++ stageWrites first (fun _ => none) last events) := by
        simp [stageWrites]
      rw [hlater, hothers]
      simp only [applyAll_append]
      rw [ih hrest]
      cases hmain : main event with
      | none =>
          rw [List.filterMap_cons_none hmain]
          rfl
      | some v =>
          have hmem : v ∈ (event :: events).filterMap main :=
            List.mem_filterMap.mpr ⟨event, List.mem_cons_self, hmain⟩
          have hmoved : forall w, w ∈ last event ++ stageWrites first (fun _ => none) last events ->
              v.Apart w := by
            intro w hw
            apply h v hmem w
            rw [hothers]
            exact List.mem_append_right _ hw
          have hcomm := applyAll_apply_comm hmoved (applyAll (first event) device)
          rw [applyAll_append, applyAll_append] at hcomm
          rw [List.filterMap_cons_some hmain]
          exact congrArg (applyAll (events.filterMap main)) hcomm

end Stages

end Writes

/-!
# Placed writes
-/

def ByteWrite.PlacedIn (w : ByteWrite) (r : PageRun) : Prop :=
  forall x, w.Covers x -> x / 4096 ∈ r.pages

theorem ByteWrite.placedIn_of_le {w : ByteWrite} {r : PageRun} (hbase : r.base % 4096 = 0)
    (hoffset : w.offset = r.base) (hsize : w.size ≤ 4096 * r.count) : w.PlacedIn r := by
  intro x hcovers
  rcases hcovers with ⟨hlow, hhigh⟩
  rw [PageRun.mem_pages]
  omega

section Placed

variable {used : Finset Nat} {placed : List (PageRun × ByteWrite)}

theorem pairwise_apart_of_granted (hgranted : Granted used (placed.map Prod.fst))
    (hplaced : forall p, p ∈ placed -> p.2.PlacedIn p.1) :
    (placed.map Prod.snd).Pairwise ByteWrite.Apart := by
  induction placed generalizing used with
  | nil => exact List.Pairwise.nil
  | cons p ps ih =>
      rcases hgranted with ⟨-, hrest⟩
      have htail := ih hrest fun q hq => hplaced q (List.mem_cons_of_mem p hq)
      refine List.pairwise_cons.mpr ⟨?_, htail⟩
      intro w hw x hx hcovers
      rcases List.mem_map.mp hw with ⟨q, hq, rfl⟩
      rcases hrest.mem (List.mem_map_of_mem (f := Prod.fst) hq) with ⟨-, -, hdisjoint⟩
      have hfirst : x / 4096 ∈ used ∪ p.1.pages :=
        Finset.mem_union_right used (hplaced p List.mem_cons_self x hx)
      exact Finset.disjoint_left.mp hdisjoint hfirst
        (hplaced q (List.mem_cons_of_mem p hq) x hcovers)

/-- What is written to a run of one's own can be read back. -/
theorem applyAll_placed (hgranted : Granted used (placed.map Prod.fst))
    (hplaced : forall p, p ∈ placed -> p.2.PlacedIn p.1) {p : PageRun × ByteWrite}
    (hp : p ∈ placed) {i : Nat} (hi : i < p.2.size) (device : Mem) :
    applyAll (placed.map Prod.snd) device (p.2.offset + i) = p.2.data i :=
  applyAll_of_apart (pairwise_apart_of_granted hgranted hplaced)
    (List.mem_map_of_mem (f := Prod.snd) hp) hi

/-- Pages that were in use before are not written to. -/
theorem applyAll_placed_of_used (hgranted : Granted used (placed.map Prod.fst))
    (hplaced : forall p, p ∈ placed -> p.2.PlacedIn p.1) {x : Nat} (hx : x / 4096 ∈ used)
    (device : Mem) : applyAll (placed.map Prod.snd) device x = device x := by
  apply applyAll_of_not_covers
  intro w hw hcovers
  rcases List.mem_map.mp hw with ⟨p, hp, rfl⟩
  rcases hgranted.mem (List.mem_map_of_mem (f := Prod.fst) hp) with ⟨-, -, hdisjoint⟩
  exact Finset.disjoint_left.mp hdisjoint hx (hplaced p hp x hcovers)

/-- What is written to one run later on leaves the others as they are. -/
theorem applyAll_placed_under (hgranted : Granted used (placed.map Prod.fst))
    (hplaced : forall p, p ∈ placed -> p.2.PlacedIn p.1) {j k : Nat} {p q : PageRun × ByteWrite}
    (hp : placed[j]? = some p) (hq : placed[k]? = some q) (hne : j ≠ k) {more : List ByteWrite}
    (hinside : forall w, w ∈ more -> forall x, w.Covers x -> q.2.Covers x) {i : Nat}
    (hi : i < p.2.size) (device : Mem) :
    applyAll more (applyAll (placed.map Prod.snd) device) (p.2.offset + i) = p.2.data i := by
  rw [← applyAll_placed hgranted hplaced (List.mem_of_getElem? hp) hi device]
  apply applyAll_of_not_covers
  intro w hw hcovers
  have hin : q.2.Covers (p.2.offset + i) := hinside w hw _ hcovers
  have hown : p.2.Covers (p.2.offset + i) := ⟨by omega, by omega⟩
  have hapart := List.pairwise_map.mp (pairwise_apart_of_granted hgranted hplaced)
  rw [List.pairwise_iff_getElem] at hapart
  rcases List.getElem?_eq_some_iff.mp hp with ⟨hj, rfl⟩
  rcases List.getElem?_eq_some_iff.mp hq with ⟨hk, rfl⟩
  rcases Nat.lt_or_gt_of_ne hne with hlt | hgt
  · exact hapart j k hj hk hlt _ hown hin
  · exact hapart k j hk hj hgt _ hin hown

end Placed

end Foundation
