import GpuStack.Admission.Promise
import GpuStack.Lib.Packing

/-!
# Admission/Population — one population of cards through a whole fit

The demands of a list may fall into populations: the cards two of them cover are the same or have
nothing in common.  What the fit does to the cards of one population is then a matter of the demands
of that population.  `Fitted` says what that is: the slices placed so far, in order (`t`), and the
cards taken whole (`X`).

Sorted demands ask for slices first, larger ones before smaller ones, and for whole cards last, since
an exclusive demand names no units.
-/

namespace GpuStack

open List

open Packing (content load BestFit)

variable {n : ℕ} {cards : Fin n → CardLedger}

/-! ## Populations -/

/-- The cards a demand covers. -/
def population (cards : Fin n → CardLedger) (d : FamilyDemand) : Fin n → Bool := fun i =>
  (cards i).coveredBy d

/-- The two demands cover the same cards, or no card in common. -/
def Apart (cards : Fin n → CardLedger) (P : Fin n → Bool) (d : FamilyDemand) : Prop :=
  population cards d = P ∨ ∀ i, P i = true → (cards i).coveredBy d = false

/-- What a card can give to slices. -/
def sliceCap (cards : Fin n → CardLedger) (i : Fin n) : ℕ := (cards i).remaining.toNat

/-- The cards of a population that take slices. -/
def sliceBins (cards : Fin n → CardLedger) (P : Fin n → Bool) : Finset (Fin n) :=
  Finset.univ.filter fun i => P i = true ∧ (cards i).TakesSlices

/-- The untouched cards of a population that can be held whole. -/
def wholeBins (cards : Fin n → CardLedger) (P : Fin n → Bool) : Finset (Fin n) :=
  Finset.univ.filter fun i => P i = true ∧ (cards i).servesFamily .exclusive = true ∧
    resourceMaxUnits ≤ (cards i).remaining

/-- The sizes of the slices a population is asked for. -/
def sliceSizes (cards : Fin n → CardLedger) (P : Fin n → Bool) (ds : List FamilyDemand) : List ℕ :=
  (ds.filter fun d => d.family = .sliced && population cards d = P).flatMap fun d =>
    List.replicate d.cards d.unitsPerCard

/-- The number of whole cards a population is asked for. -/
def wholeCount (cards : Fin n → CardLedger) (P : Fin n → Bool) (ds : List FamilyDemand) : ℕ :=
  ((ds.filter fun d => d.family = .exclusive && population cards d = P).map (·.cards)).sum

variable {i : Fin n} {P : Fin n → Bool} {t : List (Fin n × ℕ)} {X : Finset (Fin n)}
  {budgets : Budgets n} {d : FamilyDemand} {ds : List FamilyDemand}

theorem mem_sliceBins :
    i ∈ sliceBins cards P ↔ P i = true ∧ (cards i).TakesSlices := by
  simp [sliceBins]

theorem mem_wholeBins :
    i ∈ wholeBins cards P ↔ P i = true ∧ (cards i).servesFamily .exclusive = true ∧
      resourceMaxUnits ≤ (cards i).remaining := by
  simp [wholeBins]

/-- The slots of a card are never short for slices of the demand's size. -/
def CardLedger.AmpleSlots (c : CardLedger) (d : FamilyDemand) : Prop :=
  c.remaining.toNat / d.unitsPerCard ≤ c.freeSlots.toNat

/-! ## What the fit has done to a population -/

/-- **The budgets of a population**: `t` are the slices placed on its cards, in order, and `X` the
cards taken whole. -/
structure Fitted (cards : Fin n → CardLedger) (P : Fin n → Bool) (budgets : Budgets n)
    (t : List (Fin n × ℕ)) (X : Finset (Fin n)) : Prop where
  shares : ∀ i, P i = true → (budgets i).shares = 0
  units : ∀ i, P i = true → (budgets i).units = load t i
  slices : ∀ i, P i = true → (budgets i).slices = (content t i).length
  whole : ∀ i, P i = true → ((budgets i).whole = true ↔ i ∈ X)
  packs : Packing.Packs (sliceCap cards) (sliceBins cards P) t
  subset : X ⊆ wholeBins cards P
  unbroken : ∀ i ∈ X, content t i = []

theorem fitted_empty (P : Fin n → Bool) : Fitted cards P (fun _ => {}) [] ∅ where
  shares _ _ := rfl
  units _ _ := rfl
  slices _ _ := rfl
  whole i _ := by simp
  packs := ⟨by simp, fun i _ => Nat.zero_le _⟩
  subset := Finset.empty_subset _
  unbroken i hi := absurd hi (Finset.notMem_empty i)

/-- Budgets that agree on the population. -/
theorem Fitted.congr {budgets' : Budgets n} (h : Fitted cards P budgets t X)
    (heq : ∀ i, P i = true → budgets' i = budgets i) : Fitted cards P budgets' t X where
  shares i hi := by rw [heq i hi, h.shares i hi]
  units i hi := by rw [heq i hi, h.units i hi]
  slices i hi := by rw [heq i hi, h.slices i hi]
  whole i hi := by rw [heq i hi, h.whole i hi]
  packs := h.packs
  subset := h.subset
  unbroken := h.unbroken

/-! ### Slices -/

/-- Room for a slice on a card of the population, before any card is taken whole. -/
theorem Fitted.hasSliceRoom_iff (h : Fitted cards P budgets t ∅) (hd : population cards d = P) :
    HasSliceRoom cards budgets d i ↔ i ∈ sliceBins cards P ∧
      ((content t i).length : ℤ) < (cards i).freeSlots ∧
      ((load t i : ℤ) + d.unitsPerCard ≤ (cards i).remaining) := by
  rw [mem_sliceBins, ← hd]
  constructor
  · intro hroom
    have hi : P i = true := hd ▸ hroom.covered
    exact ⟨⟨hroom.covered, hroom.takes⟩, h.slices i hi ▸ hroom.slots, h.units i hi ▸ hroom.units⟩
  · rintro ⟨⟨hcov, htakes⟩, hslots, hunits⟩
    have hi : P i = true := hd ▸ hcov
    refine ⟨hcov, htakes, ?_, h.shares i hi, h.slices i hi ▸ hslots, h.units i hi ▸ hunits⟩
    simpa using (h.whole i hi).not

theorem giveSlice_apply (u : ℕ) (j : Fin n) : giveSlice budgets u i j = { budgets j with
    units := (budgets j).units + if i = j then u else 0
    slices := (budgets j).slices + if i = j then 1 else 0 } := by
  rcases eq_or_ne j i with rfl | hne
  · simp [giveSlice]
  · simp [giveSlice, hne, hne.symm]

/-- One slice placed on a card with room. -/
theorem Fitted.giveSlice (h : Fitted cards P budgets t ∅) (hd : population cards d = P)
    (hroom : HasSliceRoom cards budgets d i) :
    Fitted cards P (giveSlice budgets d.unitsPerCard i) (t ++ [(i, d.unitsPerCard)]) ∅ := by
  obtain ⟨hbin, -, hunits⟩ := (h.hasSliceRoom_iff hd).mp hroom
  have hload : ∀ j, load (t ++ [(i, d.unitsPerCard)]) j
      = load t j + if i = j then d.unitsPerCard else 0 := fun j => by
    rw [Packing.load_append, Packing.load_singleton]
  refine ⟨fun j hj => ?_, fun j hj => ?_, fun j hj => ?_, fun j hj => ?_, ⟨?_, fun j hj => ?_⟩,
    Finset.empty_subset _, fun j hj => absurd hj (Finset.notMem_empty j)⟩
  · rw [giveSlice_apply]
    exact h.shares j hj
  · rw [hload, ← h.units j hj, giveSlice_apply]
  · rw [Packing.content_append, Packing.content_singleton, length_append, ← h.slices j hj,
      giveSlice_apply]
    split <;> rfl
  · rw [giveSlice_apply]
    exact h.whole j hj
  · exact forall_mem_append.mpr ⟨h.packs.mem, by simpa using hbin⟩
  · have := h.packs.le j hj
    rw [hload]
    split
    · rename_i hij
      subst hij
      rw [sliceCap]
      omega
    · simpa using this

/-- Where slots are ample, room is a matter of units. -/
theorem Fitted.hasSliceRoom_iff_of_ample (h : Fitted cards P budgets t ∅)
    (hd : population cards d = P) (hu : 0 < d.unitsPerCard)
    (hample : ∀ i ∈ sliceBins cards P, (cards i).AmpleSlots d)
    (hmin : ∀ x ∈ t, d.unitsPerCard ≤ x.2) :
    HasSliceRoom cards budgets d i ↔
      i ∈ sliceBins cards P ∧ load t i + d.unitsPerCard ≤ sliceCap cards i := by
  rw [h.hasSliceRoom_iff hd, sliceCap]
  refine and_congr_right fun hi => ⟨fun hroom => by omega, fun hroom => ⟨?_, by omega⟩⟩
  have hcount : (content t i).length * d.unitsPerCard ≤ load t i :=
    card_nsmul_le_sum _ _ fun s hs => hmin _ (Packing.mem_content.mp hs)
  have hdiv : (content t i).length + 1 ≤ (cards i).remaining.toNat / d.unitsPerCard := by
    rw [Nat.le_div_iff_mul_le hu, Nat.add_mul, Nat.one_mul]
    omega
  have hslots : (content t i).length + 1 ≤ (cards i).freeSlots.toNat := hdiv.trans (hample i hi)
  omega

/-- The best card is a best fit. -/
theorem Fitted.bestFit_giveSlice (h : Fitted cards P budgets t ∅) (hd : population cards d = P)
    (hu : 0 < d.unitsPerCard) (hample : ∀ i ∈ sliceBins cards P, (cards i).AmpleSlots d)
    (hmin : ∀ x ∈ t, d.unitsPerCard ≤ x.2) (hfit : BestFit (sliceCap cards) (sliceBins cards P) t)
    (hbest : bestCard cards budgets d = some i) :
    BestFit (sliceCap cards) (sliceBins cards P) (t ++ [(i, d.unitsPerCard)]) := by
  have hroom : ∀ j, HasSliceRoom cards budgets d j ↔
      j ∈ sliceBins cards P ∧ load t j + d.unitsPerCard ≤ sliceCap cards j := fun j =>
    h.hasSliceRoom_iff_of_ample hd hu hample hmin
  obtain ⟨hi, hleast⟩ := bestCard_spec hbest
  have hunits : ∀ j, j ∈ sliceBins cards P → (budgets j).units = load t j := fun j hj =>
    h.units j (mem_sliceBins.mp hj).1
  obtain ⟨hbin, hload⟩ := (hroom i).mp hi
  refine hfit.concat hload fun j hj hj' => ?_
  have hle := hleast j ((hroom j).mpr ⟨hj, hj'⟩)
  rw [hunits i hbin, hunits j hj] at hle
  rw [sliceCap, sliceCap] at *
  omega

/-- **The slices of one demand** on its own population, whether they all find a card or not. -/
theorem placeSlices_fitted (hd : population cards d = P) (hu : 0 < d.unitsPerCard) :
    ∀ {k : ℕ} {budgets : Budgets n} {t : List (Fin n × ℕ)}, Fitted cards P budgets t ∅ →
      (∀ x ∈ t, d.unitsPerCard ≤ x.2) → ∃ is : List (Fin n),
        Fitted cards P (placeSlices cards d k budgets).1 (t ++ is.map (·, d.unitsPerCard)) ∅ ∧
        ((placeSlices cards d k budgets).2 = .ready ∧ is.length = k ∨
          (placeSlices cards d k budgets).2 = .retry ∧ is.length < k ∧
            ∀ i, ¬ HasSliceRoom cards (placeSlices cards d k budgets).1 d i) ∧
        ((∀ i ∈ sliceBins cards P, (cards i).AmpleSlots d) →
          BestFit (sliceCap cards) (sliceBins cards P) t →
          BestFit (sliceCap cards) (sliceBins cards P) (t ++ is.map (·, d.unitsPerCard)))
  | 0, budgets, t, h, _ =>
    ⟨[], by simpa [placeSlices] using h, .inl ⟨rfl, rfl⟩, fun _ hfit => by simpa using hfit⟩
  | k + 1, budgets, t, h, hmin => by
    rcases hbest : bestCard cards budgets d with _ | i
    · have hrun : placeSlices cards d (k + 1) budgets = (budgets, .retry) := by
        rw [placeSlices, hbest]
      rw [hrun]
      exact ⟨[], by simpa using h, .inr ⟨rfl, Nat.succ_pos k, bestCard_eq_none.mp hbest⟩,
        fun _ hfit => by simpa using hfit⟩
    · have hrun : placeSlices cards d (k + 1) budgets
          = placeSlices cards d k (giveSlice budgets d.unitsPerCard i) := by
        rw [placeSlices, hbest]
      have hmin' : ∀ x ∈ t ++ [(i, d.unitsPerCard)], d.unitsPerCard ≤ x.2 :=
        forall_mem_append.mpr ⟨hmin, by simp⟩
      obtain ⟨is, hfitted, hend, hbestFit⟩ :=
        placeSlices_fitted hd hu (h.giveSlice hd (bestCard_spec hbest).1) hmin'
      have hcons : t ++ (i :: is).map (·, d.unitsPerCard)
          = t ++ [(i, d.unitsPerCard)] ++ is.map (·, d.unitsPerCard) := by simp
      rw [hrun]
      refine ⟨i :: is, hcons ▸ hfitted, ?_, fun hample hfit => ?_⟩
      · simpa only [length_cons, Nat.add_right_cancel_iff, Nat.add_lt_add_iff_right] using hend
      · rw [hcons]
        exact hbestFit hample (h.bestFit_giveSlice hd hu hample hmin hfit hbest)

/-- A slice touches only cards its demand covers. -/
theorem placeSlices_of_not_covered (hi : (cards i).coveredBy d = false) :
    ∀ (k : ℕ) (budgets : Budgets n), (placeSlices cards d k budgets).1 i = budgets i
  | 0, _ => rfl
  | k + 1, budgets => by
    rw [placeSlices]
    rcases hbest : bestCard cards budgets d with _ | j
    · rfl
    · have hne : i ≠ j := fun h => by
        rw [h, (bestCard_spec hbest).1.covered] at hi
        exact absurd hi (by decide)
      exact (placeSlices_of_not_covered hi k _).trans (by simp [giveSlice, hne])

/-! ### Whole cards -/

/-- Take a card whole. -/
def giveWhole (budgets : Budgets n) (i : Fin n) : Budgets n :=
  Function.update budgets i { budgets i with whole := true }

/-- The cards of the population an exclusive demand does not pass over. -/
theorem Fitted.skipsWhole_eq_false_iff (h : Fitted cards P budgets t X)
    (hd : population cards d = P) (hfam : d.family = .exclusive) :
    skipsWhole cards budgets d i = false ↔
      i ∈ wholeBins cards P ∧ i ∉ X ∧ content t i = [] := by
  rw [skipsWhole_eq_false, mem_wholeBins, hfam, ← hd]
  constructor
  · rintro ⟨hwhole, -, hslices, hcov, hserve, hrem⟩
    have hi : P i = true := hd ▸ hcov
    refine ⟨⟨hcov, hserve, hrem⟩, fun hX => ?_, ?_⟩
    · rw [(h.whole i hi).mpr hX] at hwhole
      exact absurd hwhole (by decide)
    · rwa [h.slices i hi, length_eq_zero_iff] at hslices
  · rintro ⟨⟨hcov, hserve, hrem⟩, hX, hnil⟩
    have hi : P i = true := hd ▸ hcov
    refine ⟨Bool.eq_false_iff.mpr fun hw => hX ((h.whole i hi).mp hw), h.shares i hi, ?_, hcov,
      hserve, hrem⟩
    rw [h.slices i hi, hnil, length_nil]

theorem giveWhole_apply (j : Fin n) :
    giveWhole budgets i j = { budgets j with whole := decide (j = i) || (budgets j).whole } := by
  rcases eq_or_ne j i with rfl | hne
  · simp [giveWhole]
  · simp [giveWhole, hne]

theorem Fitted.giveWhole (h : Fitted cards P budgets t X) (hi : i ∈ wholeBins cards P)
    (hnil : content t i = []) :
    Fitted cards P (giveWhole budgets i) t (insert i X) where
  shares j hj := by rw [giveWhole_apply]; exact h.shares j hj
  units j hj := by rw [giveWhole_apply]; exact h.units j hj
  slices j hj := by rw [giveWhole_apply]; exact h.slices j hj
  whole j hj := by simp [giveWhole_apply, h.whole j hj]
  packs := h.packs
  subset := Finset.insert_subset hi h.subset
  unbroken := (Finset.forall_mem_insert _ _ _).mpr ⟨hnil, h.unbroken⟩

/-- **The cards of one exclusive demand** in its own population, whether they suffice or not. -/
theorem takeWhole_fitted (hd : population cards d = P) (hfam : d.family = .exclusive) :
    ∀ {is : List (Fin n)} {fit : ℕ} {budgets : Budgets n} {X : Finset (Fin n)}, is.Nodup →
      fit < d.cards → Fitted cards P budgets t X → ∃ J ⊆ is.toFinset, Disjoint X J ∧
        Fitted cards P (takeWhole cards d is fit budgets).1 t (X ∪ J) ∧
        ((takeWhole cards d is fit budgets).2 = .ready ∧ fit + J.card = d.cards ∨
          (takeWhole cards d is fit budgets).2 = .retry ∧ fit + J.card < d.cards ∧
            ∀ i ∈ is, i ∈ wholeBins cards P → i ∉ X → content t i = [] → i ∈ J)
  | [], fit, budgets, X, _, hlt, h => by
    refine ⟨∅, Finset.empty_subset _, Finset.disjoint_empty_right _, by simpa [takeWhole] using h,
      .inr ⟨rfl, by simpa using hlt, by simp⟩⟩
  | i :: is, fit, budgets, X, hnd, hlt, h => by
    obtain ⟨hi, hnd⟩ := nodup_cons.mp hnd
    rcases hskip : skipsWhole cards budgets d i with _ | _
    · obtain ⟨hbin, hX, hnil⟩ := (h.skipsWhole_eq_false_iff hd hfam).mp hskip
      by_cases hlast : d.cards ≤ fit + 1
      · have hrun : takeWhole cards d (i :: is) fit budgets = (giveWhole budgets i, .ready) := by
          rw [takeWhole, hskip, if_neg (by decide), if_pos hlast, giveWhole]
        rw [hrun]
        refine ⟨{i}, by simp, by simpa using hX, ?_, .inl ⟨rfl, by rw [Finset.card_singleton]; omega⟩⟩
        rw [Finset.union_singleton]
        exact h.giveWhole hbin hnil
      · have hrun : takeWhole cards d (i :: is) fit budgets
            = takeWhole cards d is (fit + 1) (giveWhole budgets i) := by
          rw [takeWhole, hskip, if_neg (by decide), if_neg hlast, giveWhole]
        obtain ⟨J, hsub, hdisj, hfitted, hend⟩ :=
          takeWhole_fitted hd hfam hnd (not_le.mp hlast) (h.giveWhole hbin hnil)
        have hiJ : i ∉ J := fun hmem => hi (mem_toFinset.mp (hsub hmem))
        rw [hrun]
        refine ⟨insert i J, ?_, ?_, ?_, ?_⟩
        · rw [toFinset_cons]
          exact Finset.insert_subset_insert i hsub
        · rw [Finset.disjoint_insert_right]
          exact ⟨hX, hdisj.mono_left (Finset.subset_insert i X)⟩
        · rwa [Finset.union_insert, ← Finset.insert_union]
        · rw [Finset.card_insert_of_notMem hiJ]
          refine hend.imp (And.imp_right fun h => by omega)
            (And.imp_right (And.imp (fun h => by omega) fun hall j hj hjW hjX hjt => ?_))
          rcases eq_or_ne j i with rfl | hne
          · exact Finset.mem_insert_self ..
          · refine Finset.mem_insert_of_mem (hall j ((mem_cons.mp hj).resolve_left hne) hjW ?_
              hjt)
            simp [hne, hjX]
    · have hrun : takeWhole cards d (i :: is) fit budgets = takeWhole cards d is fit budgets := by
        rw [takeWhole, hskip, if_pos rfl]
      obtain ⟨J, hsub, hdisj, hfitted, hend⟩ := takeWhole_fitted hd hfam hnd hlt h
      rw [hrun]
      refine ⟨J, fun j hj => by simp [mem_toFinset.mp (hsub hj)], hdisj, hfitted,
        hend.imp_right (And.imp_right (And.imp_right fun hall j hj hjW hjX hjt => ?_))⟩
      rcases mem_cons.mp hj with rfl | hj
      · rw [(h.skipsWhole_eq_false_iff hd hfam).mpr ⟨hjW, hjX, hjt⟩] at hskip
        exact absurd hskip (by decide)
      · exact hall j hj hjW hjX hjt

theorem takeWhole_of_not_covered (hi : (cards i).coveredBy d = false) :
    ∀ (is : List (Fin n)) (fit : ℕ) (budgets : Budgets n),
      (takeWhole cards d is fit budgets).1 i = budgets i
  | [], _, _ => rfl
  | j :: is, fit, budgets => by
    rw [takeWhole]
    rcases hskip : skipsWhole cards budgets d j with _ | _
    · have hne : i ≠ j := fun h => by
        rw [h, (skipsWhole_eq_false.mp hskip).2.2.2.1] at hi
        exact absurd hi (by decide)
      rw [if_neg (by decide)]
      split
      · exact Function.update_of_ne hne _ _
      · exact (takeWhole_of_not_covered hi is _ _).trans (Function.update_of_ne hne _ _)
    · rw [if_pos rfl]
      exact takeWhole_of_not_covered hi is fit budgets

/-! ## Over a list of demands -/

/-- A demand as the podsets make it: slices name their units, whole cards name none. -/
structure FamilyDemand.Plain (d : FamilyDemand) : Prop where
  family : d.family = .sliced ∨ d.family = .exclusive
  sliced : d.family = .sliced → 0 < d.unitsPerCard
  exclusive : d.family = .exclusive → d.unitsPerCard = 0 ∧ 0 < d.cards

theorem FamilyDemand.Plain.ne_partitioned (h : d.Plain) :
    d.family ≠ .partitioned := by
  rcases h.family with h | h <;> rw [h] <;> decide

/-- In sorted order units do not grow. -/
theorem FamilyDemand.Plain.units_le {e : FamilyDemand} (hd : d.Plain) (he : e.Plain)
    (h : d.key ≤ e.key) : e.unitsPerCard ≤ d.unitsPerCard := by
  rw [FamilyDemand.key, FamilyDemand.key, if_neg hd.ne_partitioned, if_neg he.ne_partitioned,
    Prod.Lex.toLex_le_toLex, Prod.Lex.toLex_le_toLex] at h
  simp only [lt_self_iff_false, true_and, false_or] at h
  omega

/-- What stands before a slice in sorted order are slices. -/
theorem FamilyDemand.Plain.sliced_of_key_le {e : FamilyDemand} (hd : d.Plain) (he : e.Plain)
    (h : d.key ≤ e.key) (hsliced : e.family = .sliced) : d.family = .sliced := by
  refine hd.family.resolve_right fun hexcl => ?_
  have hle := hd.units_le he h
  have hpos := he.sliced hsliced
  have hzero := (hd.exclusive hexcl).1
  omega

theorem sliceSizes_concat (P : Fin n → Bool) (ds : List FamilyDemand) (d : FamilyDemand) :
    sliceSizes cards P (ds ++ [d]) = sliceSizes cards P ds ++
      if d.family = .sliced ∧ population cards d = P then List.replicate d.cards d.unitsPerCard
      else [] := by
  by_cases h : d.family = .sliced ∧ population cards d = P
  · simp [sliceSizes, filter_append, h]
  · rw [if_neg h, append_nil, sliceSizes, sliceSizes, filter_append,
      filter_cons_of_neg (by simpa using h), filter_nil, append_nil]

theorem wholeCount_concat (P : Fin n → Bool) (ds : List FamilyDemand) (d : FamilyDemand) :
    wholeCount cards P (ds ++ [d]) = wholeCount cards P ds +
      if d.family = .exclusive ∧ population cards d = P then d.cards else 0 := by
  by_cases h : d.family = .exclusive ∧ population cards d = P
  · simp [wholeCount, filter_append, h]
  · rw [if_neg h, Nat.add_zero, wholeCount, wholeCount, filter_append,
      filter_cons_of_neg (by simpa using h), filter_nil, append_nil]

theorem mem_sliceSizes {u : ℕ} (h : u ∈ sliceSizes cards P ds) :
    ∃ d ∈ ds, d.family = .sliced ∧ population cards d = P ∧ d.unitsPerCard = u := by
  obtain ⟨d, hd, hu⟩ := mem_flatMap.mp h
  obtain ⟨hmem, hd⟩ := mem_filter.mp hd
  simp only [Bool.and_eq_true, decide_eq_true_eq] at hd
  exact ⟨d, hmem, hd.1, hd.2, (eq_of_mem_replicate hu).symm⟩

theorem wholeCount_eq_zero (h : ∀ d ∈ ds, d.family = .sliced) : wholeCount cards P ds = 0 := by
  rw [wholeCount, filter_eq_nil_iff.mpr fun d hd => by simp [h d hd]]
  rfl

theorem allFit_append {es : List FamilyDemand} :
    ∀ {budgets : Budgets n}, AllFit cards (ds ++ es) budgets ↔
      AllFit cards ds budgets ∧ AllFit cards es (fitInflight cards ds budgets) := by
  induction ds with
  | nil => exact fun {budgets} => iff_of_eq (true_and _).symm
  | cons d ds ih =>
    intro budgets
    rw [cons_append, AllFit, AllFit, ih, and_assoc]
    rfl

theorem fitInflight_concat (ds : List FamilyDemand) (d : FamilyDemand) (budgets : Budgets n) :
    fitInflight cards (ds ++ [d]) budgets
      = (fitDemand cards (fitInflight cards ds budgets) d).1 := by
  rw [fitInflight, foldl_append]
  rfl

/-- A demand touches only cards it covers. -/
theorem fitDemand_of_not_covered (hd : d.Plain) (hi : (cards i).coveredBy d = false)
    (budgets : Budgets n) :
    (fitDemand cards budgets d).1 i = budgets i := by
  rcases hd.family with hfam | hfam
  · rw [fitDemand, hfam]
    exact placeSlices_of_not_covered hi _ _
  · rw [fitDemand, hfam]
    exact takeWhole_of_not_covered hi _ _ _

/-- **A population through a fitted list of demands**: its slices are those asked for, placed best
fit where slots are ample, and so many of its cards are taken whole. -/
theorem fitInflight_fitted (hplain : ∀ d ∈ ds, d.Plain) (hapart : ∀ d ∈ ds, Apart cards P d)
    (hsorted : ds.Pairwise fun d e => d.key ≤ e.key) (hfit : AllFit cards ds fun _ => {}) :
    ∃ t X, Fitted cards P (fitInflight cards ds fun _ => {}) t X ∧
      t.map (·.2) = sliceSizes cards P ds ∧ X.card = wholeCount cards P ds ∧
      ((∀ d ∈ ds, d.family = .sliced → population cards d = P →
        ∀ i ∈ sliceBins cards P, (cards i).AmpleSlots d) →
        BestFit (sliceCap cards) (sliceBins cards P) t) := by
  induction ds using reverseRecOn with
  | nil => exact ⟨[], ∅, fitted_empty P, rfl, rfl, fun _ => Packing.bestFit_nil _ _⟩
  | append_singleton ds d ih =>
    obtain ⟨hsorted, -, hbefore⟩ := pairwise_append.mp hsorted
    obtain ⟨hall, hlast, -⟩ := allFit_append.mp hfit
    have hd := hplain d (by simp)
    have hin : ∀ e ∈ ds, e ∈ ds ++ [d] := fun e he => mem_append_left _ he
    have hkey : ∀ e ∈ ds, e.key ≤ d.key := fun e he => hbefore e he d (by simp)
    obtain ⟨t, X, hfitted, hsizes, hcard, hbest⟩ :=
      ih (fun e he => hplain e (hin e he)) (fun e he => hapart e (hin e he)) hsorted hall
    rw [fitInflight_concat, sliceSizes_concat, wholeCount_concat]
    by_cases hP : population cards d = P
    · rcases hd.family with hfam | hfam
      · -- so far only slices, and none smaller
        have hX : X = ∅ := Finset.card_eq_zero.mp (hcard.trans (wholeCount_eq_zero fun e he =>
          (hplain e (hin e he)).sliced_of_key_le hd (hkey e he) hfam))
        subst hX
        have hmin : ∀ x ∈ t, d.unitsPerCard ≤ x.2 := fun x hx => by
          obtain ⟨e, he, -, -, heq⟩ := mem_sliceSizes (hsizes ▸ mem_map_of_mem hx)
          exact heq ▸ (hplain e (hin e he)).units_le hd (hkey e he)
        obtain ⟨is, hfitted', hend, hbest'⟩ :=
          placeSlices_fitted hP (hd.sliced hfam) (k := d.cards) hfitted hmin
        have hrun : ∀ b, fitDemand cards b d = fitSlicedDemand cards b d := fun b => by
          rw [fitDemand, hfam]
        rw [hrun] at hlast ⊢
        obtain ⟨-, hlen⟩ | ⟨hretry, -⟩ := hend
        · refine ⟨_, ∅, hfitted', ?_, ?_, fun hample => ?_⟩
          · rw [if_pos ⟨hfam, hP⟩, ← hsizes, ← hlen]
            simp [Function.comp_def, map_const']
          · rw [hcard, hfam]
            simp
          · exact hbest' (hample d (by simp) hfam hP) (hbest fun e he => hample e (hin e he))
        · exact absurd (hretry.symm.trans hlast) (by decide)
      · obtain ⟨J, -, hdisj, hfitted', hend⟩ := takeWhole_fitted hP hfam (nodup_finRange n)
          (hd.exclusive hfam).2 hfitted
        have hrun : ∀ b, fitDemand cards b d = fitExclusiveDemand cards b d := fun b => by
          rw [fitDemand, hfam]
        rw [hrun] at hlast ⊢
        obtain ⟨-, hlen⟩ | ⟨hretry, -⟩ := hend
        · refine ⟨t, X ∪ J, hfitted', ?_, ?_, fun hample => ?_⟩
          · rw [hsizes, hfam]
            simp
          · rw [if_pos ⟨hfam, hP⟩, Finset.card_union_of_disjoint hdisj, hcard]
            omega
          · exact hbest fun e he => hample e (hin e he)
        · exact absurd (hretry.symm.trans hlast) (by decide)
    · have hnot := (hapart d (by simp)).resolve_left hP
      refine ⟨t, X, hfitted.congr fun i hi => fitDemand_of_not_covered hd (hnot i hi) _, ?_, ?_,
        fun hample => hbest fun e he => hample e (hin e he)⟩
      · rw [if_neg fun h => hP h.2, append_nil, hsizes]
      · rw [if_neg fun h => hP h.2, Nat.add_zero, hcard]

end GpuStack
