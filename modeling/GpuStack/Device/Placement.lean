import GpuStack.Device.Api
import GpuStack.Lib.Tally

/-!
# Device/Placement — where a hardware partition may be built

A partition profile has a list of legal placements on an empty accelerator.  A placement is free
when it overlaps none of the occupied ones.  `computeRemainingProfiles` counts the free placements
of every profile; `selectPartitionPlacements` picks one per accelerator, most occupied accelerator
first, lowest free placement on it.

What a caller needs of the selection is `selectPartitionPlacements_spec`: the chosen candidates are
pairwise different, and each placement is the lowest free one of its candidate.
-/

namespace GpuStack

open List

/-- Two half-open runs meet. -/
def AcceleratorPlacement.Overlaps (p q : AcceleratorPlacement) : Prop :=
  p.start < q.start + q.length ∧ q.start < p.start + p.length

instance (p q : AcceleratorPlacement) : Decidable (p.Overlaps q) :=
  inferInstanceAs (Decidable (_ ∧ _))

/-- The slot meets one of the occupied placements. -/
def placementOverlapsAny (slot : AcceleratorPlacement) (occupied : List AcceleratorPlacement) :
    Bool :=
  occupied.any fun occ => slot.Overlaps occ

variable {slot : AcceleratorPlacement} {candidates : List (PartitionCandidate × ℕ)}

theorem placementOverlapsAny_eq_false {occupied : List AcceleratorPlacement} :
    placementOverlapsAny slot occupied = false ↔ ∀ occ ∈ occupied, ¬ slot.Overlaps occ := by
  simp [placementOverlapsAny]

/-- The count of free placements of every profile; a profile with none is left out. -/
def computeRemainingProfiles (occupied : List AcceleratorPlacement)
    (possible : AList fun _ : String => List AcceleratorPlacement) : AList fun _ : String => ℤ :=
  possible.entries.foldl (fun remaining entry =>
    let n := entry.2.countP fun slot => !placementOverlapsAny slot occupied
    if 0 < n then remaining.insert entry.1 (n : ℤ) else remaining) ∅

/-- A count map, listed by profile name. -/
def profileCountSlice (counts : AList fun _ : String => ℤ) : List AcceleratorProfileCount :=
  (Tally.sortedEntries counts).map fun entry => ⟨entry.1, entry.2⟩

/-! ## Choosing where to build -/

/-- An accelerator a partition may be built on: the profile's legal placements there, and those
already taken. -/
structure PartitionCandidate where
  id : String
  possible : List AcceleratorPlacement
  occupied : List AcceleratorPlacement
deriving DecidableEq, Repr

/-- One instance placed: the accelerator it lands on and the placement it will occupy. -/
structure PartitionSelection where
  id : String
  placement : AcceleratorPlacement
deriving DecidableEq, Repr

/-- The first legal placement that overlaps nothing occupied. -/
def lowestFreePlacement (possible occupied : List AcceleratorPlacement) :
    Option AcceleratorPlacement :=
  possible.find? fun slot => !placementOverlapsAny slot occupied

/-- How many memory slices the occupied placements cover. -/
def occupiedLength (occupied : List AcceleratorPlacement) : ℤ :=
  (occupied.map (·.length)).sum

theorem lowestFreePlacement_spec {possible occupied : List AcceleratorPlacement}
    (h : lowestFreePlacement possible occupied = some slot) :
    slot ∈ possible ∧ ∀ occ ∈ occupied, ¬ slot.Overlaps occ := by
  refine ⟨mem_of_find?_eq_some h, ?_⟩
  have hfree := find?_some h
  rw [Bool.not_eq_true'] at hfree
  exact placementOverlapsAny_eq_false.mp hfree

/-- A candidate met on a pass, against the best one so far: it must be unused and still fit, and be
strictly more occupied. -/
def considerCandidate (used : List ℕ) (best : Option (ℕ × PartitionCandidate × AcceleratorPlacement))
    (c : PartitionCandidate × ℕ) : Option (ℕ × PartitionCandidate × AcceleratorPlacement) :=
  if c.2 ∈ used then best else
    match lowestFreePlacement c.1.possible c.1.occupied, best with
    | none, _ => best
    | some slot, none => some (c.2, c.1, slot)
    | some slot, some b =>
      if occupiedLength b.2.1.occupied < occupiedLength c.1.occupied then some (c.2, c.1, slot)
      else best

/-- One pass over the candidates: among those unused that still fit, the first of the most occupied,
with its place in the list. -/
def bestCandidate (used : List ℕ) (candidates : List (PartitionCandidate × ℕ)) :
    Option (ℕ × PartitionCandidate × AcceleratorPlacement) :=
  candidates.foldl (considerCandidate used) none

/-- The selection loop: `n` more instances, never twice on one candidate. -/
def selectLoop (candidates : List (PartitionCandidate × ℕ)) :
    ℕ → List ℕ → Option (List PartitionSelection)
  | 0, _ => some []
  | n + 1, used =>
    match bestCandidate used candidates with
    | none => none
    | some (i, c, slot) => (selectLoop candidates n (i :: used)).map (⟨c.id, slot⟩ :: ·)

/-- Where to build `count` instances of one profile, `none` when the candidates cannot host them
all.  A count that is not positive asks for nothing. -/
def selectPartitionPlacements (candidates : List PartitionCandidate) (count : ℤ) :
    Option (List PartitionSelection) :=
  selectLoop candidates.zipIdx count.toNat []

/-! ### What the selection guarantees -/

/-- A pass result is sound: it names an unused candidate and that candidate's lowest free
placement. -/
def SoundChoice (used : List ℕ) (candidates : List (PartitionCandidate × ℕ))
    (b : ℕ × PartitionCandidate × AcceleratorPlacement) : Prop :=
  (b.2.1, b.1) ∈ candidates ∧ b.1 ∉ used ∧
    lowestFreePlacement b.2.1.possible b.2.1.occupied = some b.2.2

theorem considerCandidate_sound {used : List ℕ}
    {best b : Option (ℕ × PartitionCandidate × AcceleratorPlacement)} {c : PartitionCandidate × ℕ}
    (hc : c ∈ candidates) (hbest : ∀ x, best = some x → SoundChoice used candidates x)
    (hb : considerCandidate used best c = b) : ∀ x, b = some x → SoundChoice used candidates x := by
  rintro x rfl
  unfold considerCandidate at hb
  split at hb
  · exact hbest x hb
  · rename_i hused
    split at hb
    · exact hbest x hb
    · rename_i slot hslot
      obtain rfl := Option.some.inj hb
      exact ⟨hc, hused, hslot⟩
    · rename_i slot b0 hslot
      split at hb
      · obtain rfl := Option.some.inj hb
        exact ⟨hc, hused, hslot⟩
      · exact hbest x hb

theorem bestCandidate_sound {used : List ℕ} {b : ℕ × PartitionCandidate × AcceleratorPlacement}
    (h : bestCandidate used candidates = some b) : SoundChoice used candidates b := by
  -- the fold keeps soundness whatever part of the list is left to walk
  suffices ∀ (l : List (PartitionCandidate × ℕ)) best, l ⊆ candidates →
      (∀ x, best = some x → SoundChoice used candidates x) →
      ∀ x, l.foldl (considerCandidate used) best = some x → SoundChoice used candidates x from
    this candidates none (List.Subset.refl _) (by simp) b h
  intro l
  induction l with
  | nil => exact fun best _ hbest => hbest
  | cons c l ih =>
    intro best hsub hbest
    exact ih _ (subset_of_cons_subset hsub)
      (considerCandidate_sound (hsub (.head _)) hbest rfl)

/-- The selections of the loop, each with the candidate it was taken on: the places are pairwise
different and outside those already used. -/
theorem selectLoop_spec :
    ∀ {n : ℕ} {used : List ℕ} {sels : List PartitionSelection},
      selectLoop candidates n used = some sels →
      ∃ chosen : List (ℕ × PartitionCandidate × AcceleratorPlacement),
        sels = chosen.map (fun b => ⟨b.2.1.id, b.2.2⟩) ∧ chosen.length = n ∧
        (chosen.map (·.1)).Nodup ∧ ∀ b ∈ chosen, SoundChoice used candidates b
  | 0, _, sels, h => ⟨[], by simpa [selectLoop] using h.symm, rfl, nodup_nil, by simp⟩
  | n + 1, used, sels, h => by
      unfold selectLoop at h
      split at h
      · cases h
      · rename_i i c slot hbest
        obtain ⟨rest, hrest, rfl⟩ := Option.map_eq_some_iff.mp h
        obtain ⟨chosen, rfl, hlen, hnd, hsound⟩ := selectLoop_spec hrest
        refine ⟨(i, c, slot) :: chosen, rfl, by simp [hlen], ?_, ?_⟩
        · refine nodup_cons.mpr ⟨fun hmem => ?_, hnd⟩
          obtain ⟨b, hb, hbi⟩ := mem_map.mp hmem
          exact (hsound b hb).2.1 (hbi ▸ .head _)
        · intro b hb
          rcases mem_cons.mp hb with rfl | hb
          · exact bestCandidate_sound hbest
          · obtain ⟨hmem, hused, hslot⟩ := hsound b hb
            exact ⟨hmem, fun h => hused (.tail _ h), hslot⟩

/-- **The selection**: `count` instances on pairwise different candidates, each at a legal placement
of its candidate that overlaps nothing occupied there. -/
theorem selectPartitionPlacements_spec {candidates : List PartitionCandidate} {count : ℤ}
    {sels : List PartitionSelection} (h : selectPartitionPlacements candidates count = some sels) :
    ∃ chosen : List (ℕ × PartitionCandidate × AcceleratorPlacement),
      sels = chosen.map (fun b => ⟨b.2.1.id, b.2.2⟩) ∧ chosen.length = count.toNat ∧
      (chosen.map (·.1)).Nodup ∧
      ∀ b ∈ chosen, candidates[b.1]? = some b.2.1 ∧ b.2.2 ∈ b.2.1.possible ∧
        ∀ occ ∈ b.2.1.occupied, ¬ b.2.2.Overlaps occ := by
  obtain ⟨chosen, hsels, hlen, hnd, hsound⟩ := selectLoop_spec h
  refine ⟨chosen, hsels, hlen, hnd, fun b hb => ?_⟩
  obtain ⟨hmem, -, hslot⟩ := hsound b hb
  exact ⟨mem_zipIdx_iff_getElem?.mp hmem, lowestFreePlacement_spec hslot⟩

end GpuStack
