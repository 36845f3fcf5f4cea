import GpuStack.DevicePlugin.PartitionChoice

/-!
# DevicePlugin/SliceMemory — a slice's memory, charged in units and granted in MiB

The Pod webhook folds the memory a sliced container asks for into units, of which a card has
`resourceMaxUnits`; the device plugin limits the container to the MiB it asked for.  A percentage is charged
exactly and its MiB are rounded down, while an absolute request is granted exactly and its units are rounded
down (`MemoryMibToUnits`), so each absolute request is charged for less than it is given.

`foldUnits_eq` keeps the account of one request: its units are the units of its MiB less what was dropped.
Summed over a card this says exactly when slices that fit in units fit in memory (`slices_fit_iff`).  They
do where few slices are in MiB (`keepsUp_of_few`), but not always: `slices_overrun` fills an 80 GiB card
to the last unit with 81921 MiB.
-/

namespace GpuStack

open List

/-- The memory budget of a sliced container, `.sliced.memory-percentage` and `.sliced.memory-mib`. -/
structure SliceRequest where
  memoryPercentage : Option ℤ := none
  memoryMib : Option ℤ := none
deriving DecidableEq, Repr

/-- Why the fold refuses a container. -/
inductive FoldError where
  /-- `container %q: %s must be within (0, 100]` -/
  | percentage
  /-- `container %q: %s must not exceed the per-card VRAM (%d MiB)` -/
  | exceedsCard
  /-- `container %q: cannot derive a positive %s from the requested memory` -/
  | notPositive
  /-- No usable memory request: the fold leaves it to the validation, which rejects it. -/
  | noMemory
deriving DecidableEq, Repr

/-- A usable budget, `Value() > 0`. -/
def usable (q : Option ℤ) : Option ℤ := q.filter (0 < ·)

/-- The fold of `PodWebhook.Default` into `.sliced.units`. -/
def foldUnits (r : SliceRequest) (cardVRAMMib : ℤ) : Except FoldError ℤ :=
  match usable r.memoryPercentage, usable r.memoryMib with
  | some pct, _ =>
    if 100 < pct then .error .percentage else positive ((pct * resourceMaxUnits).tdiv 100)
  | none, some mib =>
    if cardVRAMMib < mib then .error .exceedsCard else positive (memoryMibToUnits mib cardVRAMMib)
  | none, none => .error .noMemory
where
  positive (units : ℤ) : Except FoldError ℤ := if units ≤ 0 then .error .notPositive else .ok units

/-- `SlicedMemoryMib`: the limit a container is given, if it asked for memory at all. -/
def slicedMemoryMib (r : SliceRequest) (acceleratorVRAMMib : ℤ) : Option ℤ :=
  match usable r.memoryPercentage, usable r.memoryMib with
  | some pct, _ => some (min ((acceleratorVRAMMib * pct).tdiv 100) acceleratorVRAMMib)
  | none, some mib => some (min mib acceleratorVRAMMib)
  | none, none => none

/-! ### The account of one request -/

/-- The MiB a request stands for. -/
def SliceRequest.asked (card : ℕ) (r : SliceRequest) : ℤ :=
  match usable r.memoryPercentage, usable r.memoryMib with
  | some pct, _ => card * pct / 100
  | none, some mib => mib
  | none, none => 0

/-- What the fold drops of a request, in units times the card's MiB: the remainder of an absolute request's
conversion.  A percentage is charged for the fraction of a MiB that its limit drops. -/
def SliceRequest.dropped (card : ℕ) (r : SliceRequest) : ℤ :=
  match usable r.memoryPercentage, usable r.memoryMib with
  | some pct, _ => -(resourceMaxUnits / 100 * (card * pct % 100))
  | none, some mib => mib * resourceMaxUnits % card
  | none, none => 0

theorem pos_of_usable {q : Option ℤ} {v : ℤ} (h : usable q = some v) : 0 < v := by
  simpa using (Option.filter_eq_some_iff.mp h).2

theorem eq_of_positive {u v : ℤ} (h : foldUnits.positive u = .ok v) : v = u := by
  rw [foldUnits.positive] at h
  split at h
  · cases h
  · exact (Except.ok.inj h).symm

variable {card : ℕ} {r : SliceRequest} {u l : ℤ}

/-- **The account of one request**: its units, and the MiB it is given for them. -/
theorem foldUnits_eq (hu : foldUnits r card = .ok u) (hl : slicedMemoryMib r card = some l) :
    l = r.asked card ∧ u * card = resourceMaxUnits * r.asked card - r.dropped card := by
  unfold foldUnits at hu
  unfold slicedMemoryMib at hl
  unfold SliceRequest.asked SliceRequest.dropped
  cases hpct : usable r.memoryPercentage with
  | some pct =>
    have hpos := pos_of_usable hpct
    simp only [hpct, Option.some.injEq] at hu hl
    split at hu
    · cases hu
    · next hle =>
      have hcard : (0 : ℤ) ≤ card * pct := by positivity
      rw [Int.tdiv_eq_ediv_of_nonneg hcard] at hl
      have hlimit : (card : ℤ) * pct / 100 ≤ card := by
        refine Int.ediv_le_of_le_mul (by norm_num) ?_
        exact mul_le_mul_of_nonneg_left (not_lt.mp hle) (Int.natCast_nonneg card)
      have hunits : u = 16000 * pct := by
        rw [eq_of_positive hu, resourceMaxUnits, Int.tdiv_eq_ediv_of_nonneg (by positivity)]
        omega
      have hdiv := Int.mul_ediv_add_emod ((card : ℤ) * pct) 100
      refine ⟨by rw [← hl, min_eq_left hlimit], ?_⟩
      rw [hunits, resourceMaxUnits]
      norm_num
      linarith
  | none =>
    cases hmib : usable r.memoryMib with
    | none => simp [hpct, hmib] at hu
    | some mib =>
      have hpos := pos_of_usable hmib
      simp only [hpct, hmib, Option.some.injEq] at hu hl
      split at hu
      · cases hu
      · next hle =>
        have hcard : (0 : ℤ) < card := hpos.trans_le (not_lt.mp hle)
        have hunits : u = mib * resourceMaxUnits / card := by
          rw [eq_of_positive hu, memoryMibToUnits, if_neg (not_le.mpr hcard),
            Int.tdiv_eq_ediv_of_nonneg (by rw [resourceMaxUnits]; positivity)]
        have hdiv := Int.mul_ediv_add_emod (mib * resourceMaxUnits) card
        refine ⟨by rw [← hl, min_eq_left (not_lt.mp hle)], ?_⟩
        rw [hunits]
        linarith

/-- No limit is above the card. -/
theorem slicedMemoryMib_le (h : slicedMemoryMib r card = some l) : l ≤ card := by
  unfold slicedMemoryMib at h
  split at h
  · exact Option.some.inj h ▸ min_le_right ..
  · exact Option.some.inj h ▸ min_le_right ..
  · cases h

/-! ### The slices of a card -/

variable {requests : List SliceRequest} {units limits : List ℤ}

/-- The requests are folded to these units, one by one. -/
def Folds (card : ℕ) (requests : List SliceRequest) (units : List ℤ) : Prop :=
  List.Forall₂ (fun r u => foldUnits r card = .ok u) requests units

/-- The requests are given these limits, one by one. -/
def Limits (card : ℕ) (requests : List SliceRequest) (limits : List ℤ) : Prop :=
  List.Forall₂ (fun r l => slicedMemoryMib r card = some l) requests limits

theorem sum_limits_le (hlimits : Limits card requests limits) :
    limits.sum ≤ requests.length * card := by
  induction hlimits with
  | nil => simp
  | cons hl _ ih =>
    have hle := slicedMemoryMib_le hl
    rw [sum_cons, length_cons, Nat.cast_succ, add_one_mul]
    linarith

theorem sum_folds (hunits : Folds card requests units) (hlimits : Limits card requests limits) :
    limits.sum = (requests.map (·.asked card)).sum ∧
      units.sum * card = resourceMaxUnits * (requests.map (·.asked card)).sum -
        (requests.map (·.dropped card)).sum := by
  induction hunits generalizing limits with
  | nil =>
    obtain rfl := forall₂_nil_left_iff.mp hlimits
    simp
  | cons hu _ ih =>
    obtain ⟨l, limits', hl, hrest, rfl⟩ := forall₂_cons_left_iff.mp hlimits
    obtain ⟨hasked, haccount⟩ := foldUnits_eq hu hl
    obtain ⟨hsum, htotal⟩ := ih hrest
    simp only [map_cons, sum_cons, add_mul, haccount, htotal, hasked, hsum]
    exact ⟨trivial, by ring⟩

/-- **What the fold drops stays below the units of every MiB the requests overrun the card by.** -/
def KeepsUp (card : ℕ) (requests : List SliceRequest) : Prop :=
  0 < (requests.map (·.asked card)).sum - card →
    (requests.map (·.dropped card)).sum <
      resourceMaxUnits * ((requests.map (·.asked card)).sum - card)

/-- **Slices that fit in units fit in memory** exactly where the fold keeps up. -/
theorem slices_fit_iff (card : ℕ) (requests : List SliceRequest) (units limits : List ℤ)
    (hunits : Folds card requests units) (hlimits : Limits card requests limits) :
    (units.sum ≤ resourceMaxUnits → limits.sum ≤ card) ↔ KeepsUp card requests := by
  obtain ⟨hlimit, haccount⟩ := sum_folds hunits hlimits
  rw [hlimit, KeepsUp]
  -- units fit exactly when what is dropped makes up for the overrun
  have hfit : 0 < (requests.map (·.asked card)).sum - card →
      (units.sum ≤ resourceMaxUnits ↔
        resourceMaxUnits * ((requests.map (·.asked card)).sum - card) ≤
          (requests.map (·.dropped card)).sum) := by
    intro hover
    rcases Nat.eq_zero_or_pos card with rfl | hcard
    · -- a card without memory gives no slice anything
      have hzero := sum_limits_le hlimits
      rw [hlimit, Nat.cast_zero, mul_zero] at hzero
      rw [Nat.cast_zero, sub_zero] at hover
      exact absurd hover (not_lt.mpr hzero)
    · have hpos : (0 : ℤ) < card := by exact_mod_cast hcard
      rw [← mul_le_mul_iff_left₀ hpos, haccount, mul_sub]
      constructor <;> intro h <;> linarith
  constructor
  · intro h hover
    by_contra hdropped
    have := h ((hfit hover).mpr (not_lt.mp hdropped))
    omega
  · intro h hsum
    by_contra hover
    have hpos : 0 < (requests.map (·.asked card)).sum - card := by omega
    exact absurd ((hfit hpos).mp hsum) (not_le.mpr (h hpos))

theorem dropped_le (card : ℕ) (hcard : 0 < card) (r : SliceRequest) :
    r.dropped card ≤ card - 1 := by
  have hpos : (0 : ℤ) < card := by exact_mod_cast hcard
  unfold SliceRequest.dropped
  split
  · next pct _ =>
    have hmod := Int.emod_nonneg ((card : ℤ) * pct) (by norm_num : (100 : ℤ) ≠ 0)
    rw [resourceMaxUnits]
    omega
  · exact Int.le_sub_one_of_lt (Int.emod_lt_of_pos _ hpos)
  · omega

/-- A few slices keep up: fewer than there are units to a MiB of the card. -/
theorem keepsUp_of_few (hcard : 0 < card)
    (hfew : (requests.length : ℤ) * (card - 1) < resourceMaxUnits) : KeepsUp card requests := by
  intro hover
  have hsum : (requests.map (·.dropped card)).sum ≤ requests.length * (card - 1) := by
    have h := sum_le_card_nsmul (requests.map (·.dropped card)) ((card : ℤ) - 1) (by
      simp only [mem_map]
      rintro _ ⟨r, -, rfl⟩
      exact dropped_le card hcard r)
    simpa using h
  rw [resourceMaxUnits] at hfew ⊢
  omega

/-- Two slices of an 80 GiB card. -/
theorem slices_fit_iff_pair :
    [800000, 800000].sum ≤ resourceMaxUnits ∧ [40960, 40960].sum ≤ ((81920 : ℕ) : ℤ) := by
  have hfits : [800000, 800000].sum ≤ resourceMaxUnits := by decide
  refine ⟨hfits, (slices_fit_iff 81920
    [{ memoryPercentage := some 50 }, { memoryMib := some 40960 }] [800000, 800000] [40960, 40960]
    (.cons rfl (.cons rfl .nil)) (.cons rfl (.cons rfl .nil))).mpr ?_ hfits⟩
  exact keepsUp_of_few (by norm_num) (by norm_num [resourceMaxUnits])

/-- **Twenty-one slices that fill an 80 GiB card in units and overrun it in memory.** -/
theorem slices_overrun :
    Folds 81920 (List.replicate 20 { memoryMib := some 3887 } ++ [{ memoryMib := some 4181 }])
        (List.replicate 20 75917 ++ [81660]) ∧
      Limits 81920 (List.replicate 20 { memoryMib := some 3887 } ++ [{ memoryMib := some 4181 }])
        (List.replicate 20 3887 ++ [4181]) ∧
      (List.replicate 20 75917 ++ [81660]).sum ≤ resourceMaxUnits ∧
      (81920 : ℤ) < (List.replicate 20 3887 ++ [4181]).sum := by
  refine ⟨?_, ?_, by decide, by decide⟩
  all_goals
    refine rel_append (forall₂_iff_get.mpr ?_) (.cons rfl .nil)
    refine ⟨rfl, fun i h _ => ?_⟩
    simp only [get_eq_getElem, getElem_replicate]
    rfl

end GpuStack
