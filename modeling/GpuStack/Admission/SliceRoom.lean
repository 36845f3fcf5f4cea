import GpuStack.Admission.Sound

/-!
# Admission/SliceRoom — the room of a pool for slices of one size

`slicesLeft` is the number of slices of a demand's size that a card can still take: the smaller of its
free slots and the slices its free units cover.  A slice that is placed takes one from the card it is
placed on and nothing from the others (`slicesLeft_giveSlice`), whichever card that is; so the fit
places a demand exactly if the pool has room for it, and one that does not fit fills the pool.
-/

namespace GpuStack

variable {n : ℕ} {cards : Fin n → CardLedger} {budgets : Budgets n} {d : FamilyDemand}

/-- The card may take slices of the demand: it is covered, sliceable, and neither given whole nor
shared out. -/
def OpenToSlices (cards : Fin n → CardLedger) (budgets : Budgets n) (d : FamilyDemand) (i : Fin n) :
    Prop :=
  (cards i).coveredBy d = true ∧ (cards i).TakesSlices ∧ (budgets i).whole = false ∧
    (budgets i).shares = 0

instance (i : Fin n) : Decidable (OpenToSlices cards budgets d i) := inferInstanceAs (Decidable (_ ∧ _))

/-- How many slices of the demand the card can still take. -/
def slicesLeft (cards : Fin n → CardLedger) (budgets : Budgets n) (d : FamilyDemand) (i : Fin n) : ℕ :=
  if OpenToSlices cards budgets d i then
    min ((cards i).freeSlots - (budgets i).slices).toNat
      (((cards i).remaining - (budgets i).units).toNat / d.unitsPerCard)
  else 0

/-- How many the pool can still take. -/
def sliceRoom (cards : Fin n → CardLedger) (budgets : Budgets n) (d : FamilyDemand) : ℕ :=
  ∑ i, slicesLeft cards budgets d i

/-- Every card with as many slices more as it can take. -/
def filled (cards : Fin n → CardLedger) (budgets : Budgets n) (d : FamilyDemand) : Budgets n := fun i =>
  { budgets i with
    units := (budgets i).units + d.unitsPerCard * slicesLeft cards budgets d i
    slices := (budgets i).slices + slicesLeft cards budgets d i }

variable {i : Fin n}

theorem hasSliceRoom_iff (hu : 0 < d.unitsPerCard) :
    HasSliceRoom cards budgets d i ↔ 0 < slicesLeft cards budgets d i := by
  unfold slicesLeft
  constructor
  · rintro ⟨hcov, htakes, hwhole, hshares, hslots, hunits⟩
    rw [if_pos ⟨hcov, htakes, hwhole, hshares⟩, lt_min_iff]
    exact ⟨by omega, Nat.div_pos (by omega) hu⟩
  · intro h
    split at h
    next hopen =>
      obtain ⟨hslots, hunits⟩ := lt_min_iff.mp h
      have := Nat.div_pos_iff.mp hunits
      exact ⟨hopen.1, hopen.2.1, hopen.2.2.1, hopen.2.2.2, by omega, by omega⟩
    · exact absurd h (lt_irrefl 0)

theorem slicesLeft_congr {budgets' : Budgets n} (h : budgets i = budgets' i) :
    slicesLeft cards budgets d i = slicesLeft cards budgets' d i := by
  have hopen : OpenToSlices cards budgets d i ↔ OpenToSlices cards budgets' d i := by
    rw [OpenToSlices, OpenToSlices, h]
  simp only [slicesLeft, hopen, h]

/-- **One slice takes one from its card.** -/
theorem slicesLeft_giveSlice (hu : 0 < d.unitsPerCard)
    (h : HasSliceRoom cards budgets d i) (j : Fin n) :
    slicesLeft cards (giveSlice budgets d.unitsPerCard i) d j =
      slicesLeft cards budgets d j - if j = i then 1 else 0 := by
  rcases eq_or_ne j i with rfl | hne
  · have hopen : OpenToSlices cards budgets d j := ⟨h.covered, h.takes, h.whole, h.shares⟩
    have hopen' : OpenToSlices cards (giveSlice budgets d.unitsPerCard j) d j := by
      simpa [OpenToSlices, giveSlice] using hopen
    have hslots := h.slots
    have hunits := h.units
    -- The units less one slice divide to one less.
    have hdiv : ((cards j).remaining - ((budgets j).units + d.unitsPerCard : ℕ)).toNat /
        d.unitsPerCard = ((cards j).remaining - (budgets j).units).toNat / d.unitsPerCard - 1 := by
      have hsub : ((cards j).remaining - ((budgets j).units + d.unitsPerCard : ℕ)).toNat =
          ((cards j).remaining - (budgets j).units).toNat - d.unitsPerCard := by
        push_cast
        omega
      rw [hsub, Nat.div_eq_sub_div hu (by omega) (a := ((cards j).remaining - (budgets j).units).toNat),
        Nat.add_sub_cancel]
    rw [if_pos rfl, slicesLeft, if_pos hopen', slicesLeft, if_pos hopen]
    simp only [giveSlice, Function.update_self, hdiv]
    push_cast
    omega
  · rw [if_neg hne, Nat.sub_zero]
    exact slicesLeft_congr (Function.update_of_ne hne _ _)

theorem sliceRoom_giveSlice (hu : 0 < d.unitsPerCard) (h : HasSliceRoom cards budgets d i) :
    sliceRoom cards (giveSlice budgets d.unitsPerCard i) d + 1 = sliceRoom cards budgets d := by
  have hi := (hasSliceRoom_iff hu).mp h
  have hrest : ∑ j ∈ Finset.univ.erase i,
      slicesLeft cards (giveSlice budgets d.unitsPerCard i) d j =
        ∑ j ∈ Finset.univ.erase i, slicesLeft cards budgets d j := by
    refine Finset.sum_congr rfl fun j hj => ?_
    rw [slicesLeft_giveSlice hu h, if_neg (Finset.ne_of_mem_erase hj), Nat.sub_zero]
  rw [sliceRoom, sliceRoom, ← Finset.add_sum_erase _ _ (Finset.mem_univ i),
    ← Finset.add_sum_erase _ _ (Finset.mem_univ i), hrest, slicesLeft_giveSlice hu h, if_pos rfl]
  omega

/-- A full pool is full whichever slice came first. -/
theorem filled_giveSlice (hu : 0 < d.unitsPerCard) (h : HasSliceRoom cards budgets d i) :
    filled cards (giveSlice budgets d.unitsPerCard i) d = filled cards budgets d := by
  have hi := (hasSliceRoom_iff hu).mp h
  funext j
  rw [filled, filled, slicesLeft_giveSlice hu h]
  rcases eq_or_ne j i with rfl | hne
  · obtain ⟨left, hleft⟩ := Nat.exists_eq_add_one.mpr hi
    rw [if_pos rfl, hleft, Nat.add_sub_cancel]
    simp only [giveSlice, Function.update_self, CardBudget.mk.injEq, true_and, and_true]
    constructor
    · ring
    · omega
  · rw [if_neg hne, Nat.sub_zero]
    simp only [giveSlice, Function.update_of_ne hne]

/-- A pool without room is full. -/
theorem filled_of_sliceRoom_eq_zero (h : sliceRoom cards budgets d = 0) :
    filled cards budgets d = budgets := by
  funext i
  have hi : slicesLeft cards budgets d i = 0 := Finset.sum_eq_zero_iff.mp h i (Finset.mem_univ i)
  rw [filled, hi]
  rfl

theorem placeSlices_cases (cards : Fin n → CardLedger) (hu : 0 < d.unitsPerCard) (k : ℕ) (budgets : Budgets n) :
    (k ≤ sliceRoom cards budgets d ∧ (placeSlices cards d k budgets).2 = .ready) ∨
      (sliceRoom cards budgets d < k ∧
        placeSlices cards d k budgets = (filled cards budgets d, .retry)) := by
  induction k generalizing budgets with
  | zero => exact .inl ⟨Nat.zero_le _, rfl⟩
  | succ k ih =>
    rw [placeSlices]
    rcases hbest : bestCard cards budgets d with _ | i
    · have hzero : sliceRoom cards budgets d = 0 := by
        refine Finset.sum_eq_zero fun i _ => Nat.eq_zero_of_not_pos fun hpos => ?_
        exact bestCard_eq_none.mp hbest i ((hasSliceRoom_iff hu).mpr hpos)
      exact .inr ⟨by omega, by rw [filled_of_sliceRoom_eq_zero hzero]⟩
    · have hroom := (bestCard_spec hbest).1
      have hsum := sliceRoom_giveSlice hu hroom
      rcases ih (giveSlice budgets d.unitsPerCard i) with ⟨hle, hready⟩ | ⟨hlt, hretry⟩
      · exact .inl ⟨by omega, hready⟩
      · refine .inr ⟨by omega, ?_⟩
        rw [← filled_giveSlice hu hroom]
        exact hretry

/-- **A sliced demand is judged by the exact room**, and one that does not fit leaves every card with all
the slices it can take. -/
theorem fitSlicedDemand_exact (cards : Fin n → CardLedger) (budgets : Budgets n) (d : FamilyDemand)
    (hu : 0 < d.unitsPerCard) :
    ((fitSlicedDemand cards budgets d).2.1 = .ready ↔ d.cards ≤ sliceRoom cards budgets d) ∧
      ((fitSlicedDemand cards budgets d).2.1 = .retry →
        (fitSlicedDemand cards budgets d).1 = filled cards budgets d) := by
  have hstate : (fitSlicedDemand cards budgets d).2.1 = (placeSlices cards d d.cards budgets).2 := rfl
  have hleft : (fitSlicedDemand cards budgets d).1 = (placeSlices cards d d.cards budgets).1 := rfl
  rw [hstate, hleft]
  rcases placeSlices_cases cards hu d.cards budgets with ⟨hle, hready⟩ | ⟨hlt, hretry⟩
  · rw [hready]
    exact ⟨⟨fun _ => hle, fun _ => rfl⟩, fun h => by cases h⟩
  · rw [hretry]
    exact ⟨iff_of_false (by simp) (by omega), fun _ => rfl⟩

/-- A free card of ten units with four slots. -/
def tenUnits : Fin 1 → CardLedger := fun _ =>
  { manufacturer := "nvidia", flavors := ["f"], hostname := "h"
    capability := { logicalSliced := { count := 4 } }
    mode := .none, remaining := 10, remainingProfiles := [], allocatedSlices := 0 }

theorem fitSlicedDemand_exact_ten :
    (fitSlicedDemand tenUnits (fun _ => {}) ⟨.sliced, 2, 4, "", "f", [], [], ""⟩).2.1 = .ready :=
  (fitSlicedDemand_exact tenUnits (fun _ => {}) ⟨.sliced, 2, 4, "", "f", [], [], ""⟩ (by decide)).1.mpr
    (by decide)

/-- Of three slices of four units two are placed on a card of ten units; they stay charged, and one of
three units, for which there was room before, then finds none. -/
theorem unfit_slices_stay_charged :
    (fitSlicedDemand tenUnits (fun _ => {}) ⟨.sliced, 3, 4, "", "f", [], [], ""⟩).2.1 = .retry ∧
      ((fitSlicedDemand tenUnits (fun _ => {}) ⟨.sliced, 3, 4, "", "f", [], [], ""⟩).1 0).units = 8 ∧
      (fitSlicedDemand tenUnits (fun _ => {}) ⟨.sliced, 1, 3, "", "f", [], [], ""⟩).2.1 = .ready ∧
      (fitSlicedDemand tenUnits
        (fitSlicedDemand tenUnits (fun _ => {}) ⟨.sliced, 3, 4, "", "f", [], [], ""⟩).1
        ⟨.sliced, 1, 3, "", "f", [], [], ""⟩).2.1 = .retry := by
  decide

end GpuStack
