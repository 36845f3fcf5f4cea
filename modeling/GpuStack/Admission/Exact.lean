import GpuStack.Admission.Population

/-!
# Admission/Exact — when the greedy fit misses nothing

The fit never moves a slice it has placed, so it may answer Retry although all demands can be placed.
It does not when, in every population, of two slice sizes the smaller divides the larger or the two
exceed a card together, and the slots of the cards are not what slices of different sizes compete for
(`Orderly`).  Then a demand that finds no room has none in any placement: for slices this is
`Packing.BestFit.not_packs` on the cards of the population, for whole cards the same on the cards that
were full when the last untouched card was broken into.

The condition on sizes cannot be weakened: every pair of sizes that violates it has two cards on which
the fit misses a placement (`missingPool`).
-/

namespace GpuStack

open List

open Packing (content load BestFit Packs NestsWith)

variable {n : ℕ} {cards : Fin n → CardLedger}

/-! ## A placement seen from one population -/

/-- The slices a placement puts on a population. -/
def grantedSlices (cards : Fin n → CardLedger) (P : Fin n → Bool) :
    List FamilyDemand → List (Grant n) → List (Fin n × ℕ)
  | d :: ds, .slices is :: gs =>
    (if population cards d = P then is.map (·, d.unitsPerCard) else []) ++
      grantedSlices cards P ds gs
  | _ :: ds, _ :: gs => grantedSlices cards P ds gs
  | _, _ => []

section Grants

variable {κ : Type*} {host : Fin n → κ} {P : Fin n → Bool}

variable {ds : List FamilyDemand} {gs : List (Grant n)}

theorem map_snd_grantedSlices (hserve : List.Forall₂ (Serves cards host) ds gs) :
    (grantedSlices cards P ds gs).map (·.2) = sliceSizes cards P ds := by
  induction hserve with
  | nil => rfl
  | @cons d g ds gs hg _ ih =>
    cases g with
    | whole | shares => simpa [grantedSlices, sliceSizes, hg.1] using ih
    | slices is =>
      by_cases hP : population cards d = P
      · simp [grantedSlices, sliceSizes, hg.1, hP, ih, ← hg.2.1, Function.comp_def, map_const']
      · simpa [grantedSlices, sliceSizes, hg.1, hP] using ih

theorem mem_sliceBins_of_granted (hserve : List.Forall₂ (Serves cards host) ds gs) :
    ∀ x ∈ grantedSlices cards P ds gs, x.1 ∈ sliceBins cards P := by
  induction hserve with
  | nil => exact fun x hx => nomatch hx
  | @cons d g ds gs hg _ ih =>
    intro x hx
    cases g with
    | whole | shares => exact ih x hx
    | slices is =>
      rcases mem_append.mp hx with hx | hx
      · by_cases hP : population cards d = P
        · rw [if_pos hP] at hx
          obtain ⟨i, hi, rfl⟩ := mem_map.mp hx
          obtain ⟨hcov, htakes⟩ := hg.2.2 i hi
          exact mem_sliceBins.mpr ⟨hP ▸ hcov, htakes⟩
        · rw [if_neg hP] at hx
          exact nomatch hx
      · exact ih x hx

/-- The slices on a card are within its load. -/
theorem granted_le_totalLoad (P : Fin n → Bool) (i : Fin n)
    (hserve : List.Forall₂ (Serves cards host) ds gs) :
    load (grantedSlices cards P ds gs) i ≤ (totalLoad ds gs i).units ∧
      (content (grantedSlices cards P ds gs) i).length ≤ (totalLoad ds gs i).slices := by
  induction hserve with
  | nil => exact ⟨Nat.zero_le _, Nat.zero_le _⟩
  | @cons d g ds gs hg _ ih =>
    obtain ⟨hunits, hslices⟩ := ih
    rw [totalLoad, Load.units_add, Load.slices_add]
    cases g with
    | whole | shares => exact ⟨Nat.le_add_left_of_le hunits, Nat.le_add_left_of_le hslices⟩
    | slices is =>
      rw [grantedSlices, Packing.load_append, Packing.content_append, length_append]
      by_cases hP : population cards d = P
      · have hcontent := Packing.content_map_pair is d.unitsPerCard i
        rw [if_pos hP, load, hcontent]
        simp only [sum_replicate, smul_eq_mul, length_replicate, Grant.load]
        rw [Nat.mul_comm]
        omega
      · rw [if_neg hP]
        exact ⟨Nat.add_le_add (Nat.zero_le _) hunits, Nat.add_le_add (Nat.zero_le _) hslices⟩

/-- A card given whole can be held whole. -/
theorem servesFamily_of_wholes_ne_zero {i : Fin n}
    (hserve : List.Forall₂ (Serves cards host) ds gs) (h : (totalLoad ds gs i).wholes ≠ 0) :
    (cards i).servesFamily .exclusive = true := by
  induction hserve with
  | nil => exact absurd rfl h
  | @cons d g ds gs hg _ ih =>
    rw [totalLoad, Load.wholes_add] at h
    cases g with
    | whole is =>
      by_cases hi : i ∈ is
      · exact (hg.2.2 i hi).2
      · have hzero : ((Grant.whole is).load d i).wholes = 0 := count_eq_zero_of_not_mem hi
        exact ih (by omega)
    | shares | slices => exact ih (by simpa [Grant.load] using h)

/-- The whole cards a population is asked for are given there. -/
theorem wholeCount_le_sum_wholes (hserve : List.Forall₂ (Serves cards host) ds gs) :
    wholeCount cards P ds
      ≤ ∑ i ∈ Finset.univ.filter fun i => P i = true, (totalLoad ds gs i).wholes := by
  induction hserve with
  | nil => exact Nat.zero_le _
  | @cons d g ds gs hg _ ih =>
    simp only [totalLoad, Load.wholes_add, Finset.sum_add_distrib]
    by_cases hd : d.family = .exclusive ∧ population cards d = P
    · have hcount : wholeCount cards P (d :: ds) = d.cards + wholeCount cards P ds := by
        simp [wholeCount, hd]
      obtain ⟨hfam, hP⟩ := hd
      cases g with
      | whole is =>
        have hall : ∑ i ∈ Finset.univ.filter fun i => P i = true, is.count i = is.length := by
          rw [← sum_count_eq_length is]
          refine Finset.sum_filter_of_ne fun i _ hne => ?_
          have hi := count_pos_iff.mp (Nat.pos_of_ne_zero hne)
          exact hP ▸ (hg.2.2 i hi).1
        rw [hcount, ← hg.2.1, ← hall]
        exact Nat.add_le_add_left ih _
      | shares | slices => exact absurd (hfam.symm.trans hg.1) (by decide)
    · have hcount : wholeCount cards P (d :: ds) = wholeCount cards P ds := by
        rw [wholeCount, wholeCount, filter_cons_of_neg (by simpa using hd)]
      rw [hcount]
      exact Nat.le_add_left_of_le ih

/-- **What a placement means for one population**: the slices it is asked for are packed on cards
that are not given whole, within their slots, and as many untouched cards as asked for are given
whole. -/
theorem Placeable.exists_packs (h : Placeable cards host ds)
    (P : Fin n → Bool) :
    ∃ t X, Packs (sliceCap cards) (sliceBins cards P \ X) t ∧
      t.map (·.2) = sliceSizes cards P ds ∧
      (∀ i, (content t i).length ≤ (cards i).freeSlots.toNat) ∧
      X ⊆ wholeBins cards P ∧ wholeCount cards P ds ≤ X.card := by
  obtain ⟨gs, hserve, hhold⟩ := h
  have hle := fun i => granted_le_totalLoad P i hserve
  refine ⟨grantedSlices cards P ds gs,
    Finset.univ.filter fun i => P i = true ∧ (totalLoad ds gs i).wholes ≠ 0,
    ⟨fun x hx => ?_, fun i _ => ?_⟩, map_snd_grantedSlices hserve, fun i => ?_, fun i hi => ?_, ?_⟩
  · have hpos := length_pos_of_mem (Packing.mem_content.mpr hx)
    refine Finset.mem_sdiff.mpr ⟨mem_sliceBins_of_granted hserve x hx, fun hX => ?_⟩
    have hwhole := (hhold x.1).whole
    have := hle x.1
    simp only [Finset.mem_filter] at hX
    omega
  · have := (hhold i).slices
    have := hle i
    have := @units_eq_zero_of_slices_eq_zero n i ds gs
    rw [sliceCap]
    omega
  · have := (hhold i).slices
    have := hle i
    omega
  · simp only [Finset.mem_filter, Finset.mem_univ, true_and] at hi
    have hwhole := (hhold i).whole
    exact mem_wholeBins.mpr ⟨hi.1, servesFamily_of_wholes_ne_zero hserve hi.2, by omega⟩
  · refine (wholeCount_le_sum_wholes hserve).trans ?_
    rw [← Finset.filter_filter, Finset.card_filter]
    refine Finset.sum_le_sum fun i _ => ?_
    have hwhole := (hhold i).whole
    split <;> omega

end Grants

/-! ## The demand that finds no room -/

/-- What a card has when nothing is taken of it. -/
def fullCap : ℕ := resourceMaxUnits.toNat

/-- **Demands the fit misses nothing of**, but for the sizes: sorted, as the podsets make them, with
populations that are the same or apart, on cards with no more units than a whole card.  Where slices
of different sizes, or slices and whole cards, compete for a population, its slots are ample. -/
structure Orderly (cards : Fin n → CardLedger) (ds : List FamilyDemand) : Prop where
  plain : ∀ d ∈ ds, d.Plain
  sorted : ds.Pairwise fun d e => d.key ≤ e.key
  apart : ∀ d ∈ ds, ∀ e ∈ ds, Apart cards (population cards d) e
  remaining : ∀ i, (cards i).remaining ≤ resourceMaxUnits
  slots : ∀ d ∈ ds, d.family = .sliced →
    (∀ i ∈ sliceBins cards (population cards d), (cards i).AmpleSlots d) ∨
    ∀ e ∈ ds, population cards e = population cards d →
      e.family = .sliced ∧ e.unitsPerCard = d.unitsPerCard

/-- The sizes of slices that meet in one population are related by `T`. -/
def SizesMeet (cards : Fin n → CardLedger) (T : ℕ → ℕ → Prop) (ds : List FamilyDemand) : Prop :=
  ∀ d ∈ ds, ∀ e ∈ ds, d.family = .sliced → e.family = .sliced →
    population cards d = population cards e → e.unitsPerCard < d.unitsPerCard →
    T d.unitsPerCard e.unitsPerCard

/-- The larger size `a` and the smaller size `b` nest. -/
def Nest (a b : ℕ) : Prop := NestsWith fullCap b a

theorem sliceCap_le (h : ∀ i, (cards i).remaining ≤ resourceMaxUnits) (i : Fin n) :
    sliceCap cards i ≤ fullCap := Int.toNat_le_toNat (h i)

/-- Ample slots for a size are ample for a larger one. -/
theorem CardLedger.AmpleSlots.mono {c : CardLedger} {d e : FamilyDemand} (h : c.AmpleSlots d)
    (hd : 0 < d.unitsPerCard) (hle : d.unitsPerCard ≤ e.unitsPerCard) : c.AmpleSlots e :=
  (Nat.div_le_div_left hle hd).trans h

variable {ds : List FamilyDemand}

theorem pairwise_sliceSizes (cards : Fin n → CardLedger) (P : Fin n → Bool)
    (hplain : ∀ d ∈ ds, d.Plain) (hsorted : ds.Pairwise fun d e => d.key ≤ e.key) :
    (sliceSizes cards P ds).Pairwise fun a b => b ≤ a := by
  refine pairwise_flatMap.mpr ⟨fun d _ => ?_, ?_⟩
  · exact pairwise_replicate.mpr (.inr le_rfl)
  · have hmem : ∀ d ∈ ds.filter fun d => d.family = .sliced && population cards d = P, d.Plain :=
      fun d hd => hplain d (mem_of_mem_filter hd)
    refine (hsorted.filter _).imp_of_mem fun {d e} hd he hle a ha b hb => ?_
    rw [eq_of_mem_replicate ha, eq_of_mem_replicate hb]
    exact (hmem d hd).units_le (hmem e he) hle

theorem sliceSizes_append (P : Fin n → Bool) (ds es : List FamilyDemand) :
    sliceSizes cards P (ds ++ es) = sliceSizes cards P ds ++ sliceSizes cards P es := by
  simp [sliceSizes]

theorem wholeCount_append (P : Fin n → Bool) (ds es : List FamilyDemand) :
    wholeCount cards P (ds ++ es) = wholeCount cards P ds + wholeCount cards P es := by
  simp [wholeCount]

/-- The sizes of a population nest with each other. -/
theorem SizesMeet.nestsWith (h : SizesMeet cards Nest ds)
    {P : Fin n → Bool} {a b : ℕ} (ha : a ∈ sliceSizes cards P ds) (hb : b ∈ sliceSizes cards P ds)
    (hle : b ≤ a) : NestsWith fullCap b a := by
  obtain ⟨d, hd, hdfam, hdP, rfl⟩ := mem_sliceSizes ha
  obtain ⟨e, he, hefam, heP, rfl⟩ := mem_sliceSizes hb
  rcases hle.eq_or_lt with heq | hlt
  · exact .inl (heq ▸ dvd_rfl)
  · exact h d hd e he hdfam hefam (hdP.trans heP.symm) hlt

/-- With one size, what blocks a card is the number of slices on it. -/
theorem length_le_of_blocked {i : Fin n} {u : ℕ} (hu : 0 < u) {xs ys : List ℕ} (hxs : ∀ x ∈ xs, x = u)
    (hys : ∀ y ∈ ys, y = u) (hblocked : (xs.length : ℤ) < (cards i).freeSlots →
      ¬ ((xs.sum : ℤ) + u ≤ (cards i).remaining))
    (hslots : ys.length ≤ (cards i).freeSlots.toNat) (hcap : ys.sum ≤ sliceCap cards i) :
    ys.length ≤ xs.length := by
  rw [eq_replicate_of_mem hxs, sum_replicate, smul_eq_mul] at hblocked
  rw [eq_replicate_of_mem hys, sum_replicate, smul_eq_mul, sliceCap] at hcap
  by_contra hlt
  have hmul : (xs.length + 1) * u ≤ ys.length * u := Nat.mul_le_mul_right u (by omega)
  rw [Nat.add_mul, Nat.one_mul] at hmul
  have hroom : xs.length * u + u ≤ (cards i).remaining.toNat := hmul.trans hcap
  refine hblocked (by simp only [length_replicate]; omega) ?_
  generalize xs.length * u = m at hroom ⊢
  omega

section Blocked

variable {κ : Type*} {host : Fin n → κ} {pre post : List FamilyDemand} {d : FamilyDemand}
  {P : Fin n → Bool}

theorem sliceCap_of_mem_wholeBins (hrem : ∀ i, (cards i).remaining ≤ resourceMaxUnits)
    {P : Fin n → Bool} {i : Fin n} (hi : i ∈ wholeBins cards P) : sliceCap cards i = fullCap := by
  rw [sliceCap, le_antisymm (hrem i) (mem_wholeBins.mp hi).2.2, fullCap]

/-- Slices of one size, none of which has room left. -/
theorem not_packs_of_one_size {P : Fin n → Bool} {u : ℕ} (hu : 0 < u) {bins : Finset (Fin n)}
    {t t' : List (Fin n × ℕ)} (ht : ∀ x ∈ t, x.1 ∈ sliceBins cards P ∧ x.2 = u)
    (ht' : ∀ x ∈ t', x.2 = u) (hlen : t.length < t'.length) (hsub : bins ⊆ sliceBins cards P)
    (hslots : ∀ i, (content t' i).length ≤ (cards i).freeSlots.toNat)
    (hblocked : ∀ i ∈ sliceBins cards P, ((content t i).length : ℤ) < (cards i).freeSlots →
      ¬ ((load t i : ℤ) + u ≤ (cards i).remaining)) : ¬ Packs (sliceCap cards) bins t' := by
  intro hpacks
  have hcount : ∀ {t : List (Fin n × ℕ)}, (∀ x ∈ t, x.1 ∈ sliceBins cards P) →
      ∑ i ∈ sliceBins cards P, (content t i).length = t.length := fun {t} ht => by
    simpa using Packing.sum_content (fun _ => 1) ht
  have hle : ∑ i ∈ sliceBins cards P, (content t' i).length
      ≤ ∑ i ∈ sliceBins cards P, (content t i).length := by
    refine Finset.sum_le_sum fun i hi => ?_
    by_cases hbin : i ∈ bins
    · exact length_le_of_blocked hu (fun x hx => (ht _ (Packing.mem_content.mp hx)).2)
        (fun y hy => ht' _ (Packing.mem_content.mp hy)) (hblocked i hi) (hslots i)
        (hpacks.le i hbin)
    · have hnil : content t' i = [] := eq_nil_iff_forall_not_mem.mpr fun y hy =>
        hbin (hpacks.mem _ (Packing.mem_content.mp hy))
      rw [hnil]
      exact Nat.zero_le _
  rw [hcount fun x hx => (ht x hx).1, hcount fun x hx => hsub (hpacks.mem x hx)] at hle
  omega

/-- The first demand that does not fit, with what stands before it. -/
theorem Orderly.exists_fitted (h : Orderly cards (pre ++ d :: post))
    (hfit : AllFit cards pre fun _ => {})
    (hP : population cards d = P) :
    ∃ t X, Fitted cards P (fitInflight cards pre fun _ => {}) t X ∧
      t.map (·.2) = sliceSizes cards P pre ∧
      X.card = wholeCount cards P pre ∧
      ((∀ e ∈ pre, e.family = .sliced → population cards e = P →
        ∀ i ∈ sliceBins cards P, (cards i).AmpleSlots e) →
        BestFit (sliceCap cards) (sliceBins cards P) t) := by
  have hin : ∀ e ∈ pre, e ∈ pre ++ d :: post := fun e he => mem_append_left _ he
  exact fitInflight_fitted (fun e he => h.plain e (hin e he))
    (fun e he => hP ▸ h.apart d (by simp) e (hin e he)) (pairwise_append.mp h.sorted).1 hfit

/-- **A slice without room has none in any placement.** -/
theorem Orderly.not_placeable_of_sliced (h : Orderly cards (pre ++ d :: post))
    (hnest : SizesMeet cards Nest (pre ++ d :: post)) (hfit : AllFit cards pre fun _ => {})
    (hfam : d.family = .sliced)
    (hretry : (placeSlices cards d d.cards (fitInflight cards pre fun _ => {})).2 = .retry) :
    ¬ Placeable cards host (pre ++ d :: post) := by
  intro hplace
  obtain ⟨P, hP⟩ : ∃ P, population cards d = P := ⟨_, rfl⟩
  have hd := h.plain d (by simp)
  have hu := hd.sliced hfam
  have hkey : ∀ e ∈ pre, e.key ≤ d.key := fun e he =>
    (pairwise_append.mp h.sorted).2.2 e he d (by simp)
  have hplain : ∀ e ∈ pre, e.Plain := fun e he => h.plain e (mem_append_left _ he)
  obtain ⟨t, X, hfitted, hsizes, hcard, hbest⟩ := h.exists_fitted hfit hP
  have hX : X = ∅ := Finset.card_eq_zero.mp (hcard.trans (wholeCount_eq_zero fun e he =>
    (hplain e he).sliced_of_key_le hd (hkey e he) hfam))
  subst hX
  have hmin : ∀ x ∈ t, d.unitsPerCard ≤ x.2 := fun x hx => by
    obtain ⟨e, he, -, -, heq⟩ := mem_sliceSizes (hsizes ▸ mem_map_of_mem hx)
    exact heq ▸ (hplain e he).units_le hd (hkey e he)
  obtain ⟨is, hfitted', hend, hbest'⟩ := placeSlices_fitted hP hu (k := d.cards) hfitted hmin
  obtain ⟨-, hlen, hroom⟩ := hend.resolve_left fun hready =>
    absurd (hready.1.symm.trans hretry) (by decide)
  obtain ⟨t', X', hpacks, hsizes', hslots', hX', -⟩ := hplace.exists_packs P
  set t₁ := t ++ is.map (·, d.unitsPerCard) with ht₁
  have hsizes₁ : t₁.map (·.2) = sliceSizes cards P pre ++
      replicate is.length d.unitsPerCard := by
    rw [ht₁, ← hsizes]
    simp [Function.comp_def, map_const']
  have hcons : sliceSizes cards P (d :: post)
      = replicate d.cards d.unitsPerCard ++ sliceSizes cards P post := by
    simp [sliceSizes, hfam, hP]
  have hall := hsizes'
  rw [sliceSizes_append, hcons] at hsizes'
  -- one more slice of the demand is still asked for
  have hsub : (replicate (is.length + 1) d.unitsPerCard).Sublist
      (replicate d.cards d.unitsPerCard ++ sliceSizes cards P post) :=
    ((replicate_sublist_replicate _).mpr hlen).trans (sublist_append_left ..)
  have hmin₁ : ∀ x ∈ t₁, d.unitsPerCard ≤ x.2 := forall_mem_append.mpr ⟨hmin, by simp⟩
  have hslots := h.slots d (by simp) hfam
  rw [hP] at hslots
  rcases hslots with hample | hone
  · have hfit₁ := hbest' hample (hbest fun e he _ _ i hi =>
      (hample i hi).mono hu ((hplain e he).units_le hd (hkey e he)))
    refine hfit₁.not_packs hfitted'.packs ?_ hu hmin₁ (fun i _ => sliceCap_le h.remaining i) ?_
      (fun i _ => sliceCap_le h.remaining i) (fun i hi => ?_) ?_ (fun x hx hle => ?_) ?_ hpacks
    · refine pairwise_map.mp ((pairwise_sliceSizes cards P h.plain
        h.sorted).sublist ?_)
      rw [← hall, hsizes', hsizes₁]
      exact (List.Sublist.refl _).append (((replicate_sublist_replicate _).mpr
        (Nat.le_succ _)).trans hsub)
    · intro i hi
      exact not_le.mp fun hle => hroom i
        ((hfitted'.hasSliceRoom_iff_of_ample hP hu hample hmin₁).mpr ⟨hi, hle⟩)
    · obtain ⟨hbin, hnot⟩ := Finset.mem_sdiff.mp hi
      refine sliceCap_of_mem_wholeBins h.remaining (hX' ?_)
      by_contra hiX
      exact hnot (Finset.mem_sdiff.mpr ⟨hbin, hiX⟩)
    · rw [Finset.sdiff_eq_empty_iff_subset.mpr Finset.sdiff_subset]
      exact Nat.zero_le _
    · have hmem : d.unitsPerCard ∈ sliceSizes cards P (pre ++ d :: post) := by
        rw [← hall, hsizes']
        exact mem_append_right _ (hsub.subset (by simp))
      exact hnest.nestsWith (hall ▸ mem_map_of_mem hx) hmem hle
    · rw [hsizes', hsizes₁]
      exact perm_middle.symm.subperm.trans ((List.Sublist.refl _).append hsub).subperm
  · have heq : ∀ s ∈ sliceSizes cards P (pre ++ d :: post),
        s = d.unitsPerCard := fun s hs => by
      obtain ⟨e, he, -, heP, rfl⟩ := mem_sliceSizes hs
      exact (hone e he heP).2
    refine not_packs_of_one_size hu (fun x hx => ⟨hfitted'.packs.mem x hx, ?_⟩)
      (fun x hx => heq _ (hall ▸ mem_map_of_mem hx)) ?_ Finset.sdiff_subset hslots'
      (fun i hi hslot hunits => hroom i ((hfitted'.hasSliceRoom_iff hP).mpr ⟨hi, hslot, hunits⟩))
      hpacks
    · have hx' : x.2 ∈ t₁.map (·.2) := mem_map_of_mem hx
      rw [hsizes₁] at hx'
      rcases mem_append.mp hx' with hx' | hx'
      · exact heq _ (by rw [sliceSizes_append]; exact mem_append_left _ hx')
      · exact eq_of_mem_replicate hx'
    · have h₁ := congrArg length hsizes₁
      have h₂ := congrArg length hsizes'
      simp only [length_map, length_append, length_replicate] at h₁ h₂
      omega

/-- **A whole card that is not there is not there in any placement.** -/
theorem Orderly.not_placeable_of_exclusive (h : Orderly cards (pre ++ d :: post))
    (hnest : SizesMeet cards Nest (pre ++ d :: post)) (hfit : AllFit cards pre fun _ => {})
    (hfam : d.family = .exclusive)
    (hretry : (takeWhole cards d (List.finRange n) 0 (fitInflight cards pre fun _ => {})).2
      = .retry) : ¬ Placeable cards host (pre ++ d :: post) := by
  intro hplace
  obtain ⟨P, hP⟩ : ∃ P, population cards d = P := ⟨_, rfl⟩
  have hd := h.plain d (by simp)
  have hin : ∀ e ∈ pre, e ∈ pre ++ d :: post := fun e he => mem_append_left _ he
  obtain ⟨t, X, hfitted, hsizes, hcard, hbest⟩ := h.exists_fitted hfit hP
  obtain ⟨J, -, -, -, hend⟩ := takeWhole_fitted hP hfam (nodup_finRange n)
    (hd.exclusive hfam).2 hfitted
  obtain ⟨-, hJ, htaken⟩ := hend.resolve_left fun hready =>
    absurd (hready.1.symm.trans hretry) (by decide)
  obtain ⟨t', X', hpacks, hsizes', -, hX', hcard'⟩ := hplace.exists_packs P
  have hmore : X.card + d.cards ≤ X'.card := by
    have hcons : wholeCount cards P (d :: post)
        = d.cards + wholeCount cards P post := by simp [wholeCount, hfam, hP]
    rw [wholeCount_append, hcons] at hcard'
    omega
  -- every untouched card is taken, or broken into
  have hcover : ∀ i ∈ wholeBins cards P, content t i = [] → i ∈ X ∪ J :=
    fun i hi hnil => by
      by_cases hiX : i ∈ X
      · exact Finset.mem_union_left _ hiX
      · exact Finset.mem_union_right _ (htaken i (mem_finRange i) hi hiX hnil)
  have hunion : (X ∪ J).card < X'.card := by
    have := Finset.card_union_le X J
    omega
  by_cases hbroken : ∃ j ∈ wholeBins cards P, content t j ≠ []
  · have hmem : ∀ s ∈ sliceSizes cards P pre,
        s ∈ sliceSizes cards P (pre ++ d :: post) := fun s hs => by
      rw [sliceSizes_append]
      exact mem_append_left _ hs
    have hfitt : BestFit (sliceCap cards) (sliceBins cards P) t :=
      hbest fun e he hefam heP => heP ▸ (h.slots e (hin e he) hefam).resolve_right fun hone =>
        absurd ((hone d (by simp) (hP.trans heP.symm)).1.symm.trans hfam) (by decide)
    refine hfitt.not_packs_of_opened hfitted.packs ?_ (fun x hx => ?_)
      (fun i _ => sliceCap_le h.remaining i) (fun i hi hcap => ?_)
      (fun i hi => sliceCap_of_mem_wholeBins h.remaining hi) hX' hbroken ?_ (fun x hx y hy hle => ?_)
      ?_ hpacks
    · refine pairwise_map.mp (?_ : (t.map (·.2)).Pairwise fun a b => b ≤ a)
      rw [hsizes]
      exact pairwise_sliceSizes cards _ (fun e he => h.plain e (hin e he))
        (pairwise_append.mp h.sorted).1
    · obtain ⟨e, he, hefam, -, heq⟩ := mem_sliceSizes (hsizes ▸ mem_map_of_mem hx)
      exact heq ▸ (h.plain e (hin e he)).sliced hefam
    · obtain ⟨hP, htakes⟩ := mem_sliceBins.mp hi
      refine mem_wholeBins.mpr ⟨hP, isWholeAcceleratorCapable_of_sliceable htakes.1, ?_⟩
      rw [sliceCap, fullCap] at hcap
      have : (0 : ℤ) < resourceMaxUnits := by decide
      omega
    · have hsubset : wholeBins cards P ⊆
          (X ∪ J) ∪ (wholeBins cards P).filter fun j => content t j ≠ [] :=
        fun i hi => by
          by_cases hnil : content t i = []
          · exact Finset.mem_union_left _ (hcover i hi hnil)
          · exact Finset.mem_union_right _ (Finset.mem_filter.mpr ⟨hi, hnil⟩)
      have := (Finset.card_le_card hsubset).trans (Finset.card_union_le _ _)
      omega
    · exact hnest.nestsWith (hsizes' ▸ mem_map_of_mem hx)
        (hmem _ (hsizes ▸ mem_map_of_mem hy)) hle
    · rw [hsizes, hsizes', sliceSizes_append]
      exact (sublist_append_left ..).subperm
  · push Not at hbroken
    have hle := Finset.card_le_card (hX'.trans fun i hi => hcover i hi (hbroken i hi))
    omega

end Blocked

/-! ## Exactness -/

theorem fitDemands_ready_iff {clause : String} :
    ∀ {ds : List FamilyDemand} {budgets : Budgets n} {message : String},
      (fitDemands cards clause ds budgets message).1 = .ready ↔ AllFit cards ds budgets
  | [], _, _ => iff_of_true rfl trivial
  | d :: ds, budgets, _ => by
    rcases hfit : fitDemand cards budgets d with ⟨budgets', _ | _, m⟩
    · rw [fitDemands, AllFit, hfit, fitDemands_ready_iff]
      exact (and_iff_right rfl).symm
    · rw [fitDemands, AllFit, hfit]
      exact iff_of_false (by simp) (by simp)

/-- Without inflight demands, Ready means that every demand is fitted in its turn. -/
theorem nodeDevicesFeasibility_ready_iff {pool : List ScopedDevices} :
    (nodeDevicesFeasibility pool [] ds).1 = .ready ↔
      AllFit (collectCards pool).get ds fun _ => {} := by
  rw [nodeDevicesFeasibility]
  split
  · rename_i hnil
    subst hnil
    exact iff_of_true rfl trivial
  · exact fitDemands_ready_iff

theorem exists_first_unfit :
    ∀ {budgets : Budgets n}, ¬ AllFit cards ds budgets → ∃ pre d post, ds = pre ++ d :: post ∧
      AllFit cards pre budgets ∧ (fitDemand cards (fitInflight cards pre budgets) d).2.1 = .retry := by
  induction ds with
  | nil => exact fun h => absurd trivial h
  | cons d ds ih =>
    intro budgets h
    rcases hstate : (fitDemand cards budgets d).2.1 with _ | _
    · obtain ⟨pre, e, post, rfl, hpre, hretry⟩ := ih fun hrest => h ⟨hstate, hrest⟩
      exact ⟨d :: pre, e, post, rfl, ⟨hstate, hpre⟩, hretry⟩
    · exact ⟨[], d, ds, rfl, trivial, hstate⟩

/-- **Where sizes nest the fit misses no placement.** -/
theorem Orderly.allFit {κ : Type*} {host : Fin n → κ}
    (h : Orderly cards ds) (hnest : SizesMeet cards Nest ds) (hplace : Placeable cards host ds) :
    AllFit cards ds fun _ => {} := by
  by_contra hunfit
  obtain ⟨pre, d, post, rfl, hpre, hretry⟩ := exists_first_unfit hunfit
  rcases (h.plain d (by simp)).family with hfam | hfam
  · rw [fitDemand, hfam] at hretry
    exact h.not_placeable_of_sliced hnest hpre hfam hretry hplace
  · rw [fitDemand, hfam] at hretry
    exact h.not_placeable_of_exclusive hnest hpre hfam hretry hplace

/-! ### Sizes that do not nest -/

/-- A free card with so many units and slots. -/
def freeCard (units slots : ℕ) : CardLedger :=
  { manufacturer := "nvidia", flavors := ["f"], hostname := "h"
    capability := { logicalSliced := { count := slots } }
    mode := .none, remaining := units, remainingProfiles := [], allocatedSlices := 0 }

/-- A node with two cards: one takes `a / b + 1` slices of size `b` and nothing beside a slice of size
`a`, the other takes one slice of either size. -/
def missingPool (a b : ℕ) : List ScopedDevices :=
  [{ devices :=
      { spec := [{ id := "g", manufacturer := "nvidia", accelerators :=
          [{ id := "x", status := { logicalSliced := { count := (a + b : ℕ) } } },
           { id := "y", status := { logicalSliced := { count := (a + b : ℕ) } } }] }]
        status := ⟨[⟨"g", "nvidia",
          [{ id := "x", remaining := ((a / b + 1) * b : ℕ) }, { id := "y", remaining := (a + b : ℕ) }]⟩]⟩ }
     scopes := [{ flavor := "f", acceleratorKey := "nvidia-g" }]
     hostname := "h" }]

/-- So many slices of one size, on the node of the free cards. -/
def slicesOf (units count : ℕ) : FamilyDemand :=
  { family := .sliced, cards := count, unitsPerCard := units, flavor := "f", node := "h" }

/-- One slice of the larger size and `a / b + 2` of the smaller. -/
def missingDemands (a b : ℕ) : List FamilyDemand := [slicesOf a 1, slicesOf b (a / b + 2)]

theorem freeCard_coveredBy (units slots u count : ℕ) :
    (freeCard units slots).coveredBy (slicesOf u count) = true := rfl

theorem freeCard_freeSlots (units : ℕ) {slots : ℕ} (h : 0 < slots) :
    (freeCard units slots).freeSlots = slots := by
  simp [freeCard, CardLedger.freeSlots, logicalSlotsFree, isLogicallySliceable, isPartitioned, h]

theorem freeCard_takesSlices (units : ℕ) {slots : ℕ} (h : 0 < slots) :
    (freeCard units slots).TakesSlices := by
  refine ⟨?_, .inl rfl⟩
  simp [freeCard, CardLedger.servesFamily, isLogicallySliceable, isPartitioned, h]

section Missing

variable {a b : ℕ} {cards : Fin 2 → CardLedger}

/-- The two cards of `missingPool`. -/
structure MissingCards (a b : ℕ) (cards : Fin 2 → CardLedger) : Prop where
  first : cards 0 = freeCard ((a / b + 1) * b) (a + b)
  second : cards 1 = freeCard (a + b) (a + b)

theorem missingCards (a b : ℕ) : MissingCards a b (collectCards (missingPool a b)).get := ⟨rfl, rfl⟩

theorem MissingCards.exists_freeCard (h : MissingCards a b cards) (i : Fin 2) :
    ∃ units, cards i = freeCard units (a + b) ∧ units ≤ a + b := by
  have hle : (a / b + 1) * b ≤ a + b := by
    rw [Nat.add_mul, Nat.one_mul]
    exact Nat.add_le_add_right (Nat.div_mul_le_self a b) b
  match i with
  | 0 => exact ⟨_, h.first, hle⟩
  | 1 => exact ⟨_, h.second, le_rfl⟩

theorem MissingCards.population (h : MissingCards a b cards) {d : FamilyDemand}
    (hd : d ∈ missingDemands a b) : GpuStack.population cards d = fun _ => true := by
  funext i
  obtain ⟨units, hi, -⟩ := h.exists_freeCard i
  rw [GpuStack.population, hi]
  rcases mem_pair.mp hd with rfl | rfl <;> rfl

theorem MissingCards.ampleSlots (h : MissingCards a b cards) (hb : 0 < b) (d : FamilyDemand)
    (i : Fin 2) : (cards i).AmpleSlots d := by
  obtain ⟨units, hi, hle⟩ := h.exists_freeCard i
  rw [hi, CardLedger.AmpleSlots, freeCard_freeSlots _ (by omega)]
  simp only [freeCard, Int.toNat_natCast]
  exact (Nat.div_le_self _ _).trans hle

theorem plain_missing (hb : 0 < b) (hlt : b < a) : ∀ d ∈ missingDemands a b, d.Plain := by
  intro d hd
  rcases mem_pair.mp hd with rfl | rfl
  · exact ⟨.inl rfl, fun _ => hb.trans hlt, fun h => nomatch h⟩
  · exact ⟨.inl rfl, fun _ => hb, fun h => nomatch h⟩

theorem sorted_missing (hlt : b < a) : (missingDemands a b).Pairwise fun d e => d.key ≤ e.key := by
  refine pairwise_pair.mpr (Prod.Lex.toLex_le_toLex.mpr (.inr ⟨rfl, ?_⟩))
  refine Prod.Lex.toLex_le_toLex.mpr (.inl ?_)
  simp only [slicesOf]
  omega

theorem MissingCards.orderly (h : MissingCards a b cards) (hb : 0 < b) (hlt : b < a)
    (hsum : a + b ≤ fullCap) : Orderly cards (missingDemands a b) where
  plain := plain_missing hb hlt
  sorted := sorted_missing hlt
  apart d hd e he := .inl ((h.population he).trans (h.population hd).symm)
  remaining i := by
    obtain ⟨units, hi, hle⟩ := h.exists_freeCard i
    rw [fullCap] at hsum
    rw [hi]
    simp only [freeCard]
    omega
  slots d hd _ := .inl fun i _ => h.ampleSlots hb d i

/-- The larger size on the second card, beside one of the smaller. -/
theorem MissingCards.placeable {κ : Type*} {host : Fin 2 → κ} (h : MissingCards a b cards)
    (hb : 0 < b) (hlt : b < a) : Placeable cards host (missingDemands a b) := by
  have hserve : ∀ (i : Fin 2) (u k : ℕ),
      (cards i).coveredBy (slicesOf u k) = true ∧ (cards i).TakesSlices := fun i u k => by
    obtain ⟨units, hi, -⟩ := h.exists_freeCard i
    rw [hi]
    exact ⟨freeCard_coveredBy .., freeCard_takesSlices _ (by omega)⟩
  have hdiv : a / b ≤ a := Nat.div_le_self a b
  refine ⟨[.slices [1], .slices (1 :: replicate (a / b + 1) 0)],
    .cons ⟨rfl, rfl, fun i _ => hserve i a 1⟩
      (.cons ⟨rfl, by simp [slicesOf], fun i _ => hserve i b _⟩ .nil), fun i => ?_⟩
  match i with
  | 0 =>
    have hload : totalLoad (missingDemands a b) [.slices [1], .slices (1 :: replicate
        (a / b + 1) 0)] (0 : Fin 2) = { units := (a / b + 1) * b, slices := a / b + 1 } := by
      ext <;> simp [missingDemands, slicesOf, totalLoad, Grant.load, Nat.mul_comm]
    rw [h.first, hload]
    refine ⟨.inl rfl, .inl rfl, .inr ⟨le_rfl, ?_⟩⟩
    rw [freeCard_freeSlots _ (by omega)]
    exact Int.ofNat_le.mpr (show a / b + 1 ≤ a + b by omega)
  | 1 =>
    have hload : totalLoad (missingDemands a b) [.slices [1], .slices (1 :: replicate
        (a / b + 1) 0)] (1 : Fin 2) = { units := a + b, slices := 2 } := by
      ext <;> simp [missingDemands, slicesOf, totalLoad, Grant.load, count_replicate]
    rw [h.second, hload]
    refine ⟨.inl rfl, .inl rfl, .inr ⟨le_rfl, ?_⟩⟩
    rw [freeCard_freeSlots _ (by omega)]
    exact Int.ofNat_le.mpr (show 2 ≤ a + b by omega)

/-- The larger size goes to the first card, where it leaves no room. -/
theorem MissingCards.not_allFit (h : MissingCards a b cards) (hb : 0 < b) (hlt : b < a)
    (hdvd : ¬ b ∣ a) : ¬ AllFit cards (missingDemands a b) fun _ => {} := by
  intro hfit
  obtain ⟨t, X, hfitted, hsizes, -, hbest⟩ := fitInflight_fitted (P := fun _ => true)
    (plain_missing hb hlt) (fun d hd => .inl (h.population hd)) (sorted_missing hlt) hfit
  have hfitt := hbest fun d _ _ _ i _ => h.ampleSlots hb d i
  have hcap : sliceCap cards 0 = (a / b + 1) * b ∧ sliceCap cards 1 = a + b := by
    rw [sliceCap, sliceCap, h.first, h.second]
    exact ⟨rfl, rfl⟩
  have hbin : ∀ i, i ∈ sliceBins cards fun _ => true := fun i => by
    obtain ⟨units, hi, -⟩ := h.exists_freeCard i
    exact mem_sliceBins.mpr ⟨rfl, hi ▸ freeCard_takesSlices _ (by omega)⟩
  have hall : sliceSizes cards (fun _ => true) (missingDemands a b)
      = a :: replicate (a / b + 2) b := by
    have hpop : ∀ d ∈ missingDemands a b,
        (d.family = .sliced && GpuStack.population cards d = fun _ => true) = true := fun d hd => by
      rw [h.population hd]
      rcases mem_pair.mp hd with rfl | rfl <;> rfl
    rw [sliceSizes, filter_eq_self.mpr hpop]
    simp [missingDemands, slicesOf]
  rw [hall] at hsizes
  obtain ⟨⟨i, s⟩, rest, rfl, hs, hrest⟩ := map_eq_cons_iff.mp hsizes
  obtain rfl : a = s := hs.symm
  have hfloor : a / b * b < a ∧ a < a / b * b + b := by
    have hne : a / b * b ≠ a := fun heq => hdvd (heq ▸ Nat.dvd_mul_left ..)
    exact ⟨lt_of_le_of_ne (Nat.div_mul_le_self a b) hne, Packing.lt_div_mul_add hb a⟩
  -- best fit prefers the first card
  have hi : i = 0 := by
    have hle := (hfitt [] i a rest rfl).2 0 (hbin 0) (by
      rw [hcap.1, Nat.add_mul, Nat.one_mul]
      simp only [load, content, filter_nil, map_nil, sum_nil]
      omega)
    refine (Fin.exists_fin_two.mp ⟨i, rfl⟩).elim id fun hone => ?_
    rw [hone, hcap.1, hcap.2, Nat.add_mul, Nat.one_mul] at hle
    simp only [load, content, filter_nil, map_nil, sum_nil] at hle
    omega
  subst hi
  have hb' : ∀ j, load rest j = (content rest j).length * b := fun j => by
    have heq : content rest j = replicate (content rest j).length b :=
      eq_replicate_of_mem fun s hs => eq_of_mem_replicate
        (hrest ▸ mem_map_of_mem (Packing.mem_content.mp hs))
    have hsum := congrArg sum heq
    rwa [sum_replicate, smul_eq_mul] at hsum
  have hcount : (content rest 0).length + (content rest 1).length = a / b + 2 := by
    have hsum := Packing.sum_content (fun _ => 1) (S := Finset.univ) (t := rest) (by simp)
    rw [Fin.sum_univ_two] at hsum
    have hlen := congrArg length hrest
    simp only [length_map, length_replicate] at hlen
    simpa [hlen] using hsum
  have hfirst := hfitted.packs.le 0 (hbin 0)
  have hsecond := hfitted.packs.le 1 (hbin 1)
  rw [← singleton_append, Packing.load_append, Packing.load_singleton, hb'] at hfirst hsecond
  rw [if_pos rfl, hcap.1, Nat.add_mul, Nat.one_mul] at hfirst
  rw [if_neg (by decide), hcap.2, Nat.zero_add] at hsecond
  -- so the second card would have to take all the slices of the smaller size
  have hzero : (content rest 0).length = 0 := by
    by_contra hne
    have := Nat.mul_le_mul_right b (Nat.one_le_iff_ne_zero.mpr hne)
    omega
  rw [hzero, Nat.zero_add] at hcount
  rw [hcount, Nat.add_mul] at hsecond
  omega

end Missing

/-- **The greedy fit is exact precisely on sizes that nest**: whatever sizes `T` lets meet in one
population, the fit misses no placement of orderly demands if and only if of any two of them that
meet the smaller divides the larger or the two exceed a card. -/
theorem fit_exact_iff (T : ℕ → ℕ → Prop) :
    (∀ (pool : List ScopedDevices) (demands : List FamilyDemand),
      Orderly (collectCards pool).get demands → SizesMeet (collectCards pool).get T demands →
      Placeable (collectCards pool).get (fun i => ((collectCards pool).get i).hostname) demands →
      (nodeDevicesFeasibility pool [] demands).1 = .ready) ↔
    ∀ a b, 0 < b → b < a → T a b → Nest a b := by
  constructor
  · intro h a b hb hlt hT
    by_contra hnest
    rw [Nest, NestsWith, not_or, not_lt] at hnest
    have hcards := missingCards a b
    refine hcards.not_allFit hb hlt hnest.1 (nodeDevicesFeasibility_ready_iff.mp
      (h (missingPool a b) (missingDemands a b) (hcards.orderly hb hlt hnest.2) ?_
        (hcards.placeable hb hlt)))
    intro d hd e he _ _ _ hde
    rcases mem_pair.mp hd with rfl | rfl <;> rcases mem_pair.mp he with rfl | rfl
    · exact absurd hde (lt_irrefl _)
    · exact hT
    · exact absurd hde (not_lt.mpr hlt.le)
    · exact absurd hde (lt_irrefl _)
  · intro h pool demands hord hmeet hplace
    refine nodeDevicesFeasibility_ready_iff.mpr (hord.allFit (fun d hd e he hdf hef hP hlt => ?_)
      hplace)
    exact h _ _ ((hord.plain e he).sliced hef) hlt (hmeet d hd e he hdf hef hP hlt)

/-- **Twenty tenths that fit two cards are not placed**: 5, 3, 2 and 4, 3, 3 tenths fill the two cards,
but the fit puts 5 and 4 on one and 3, 3, 3 on the other, and finds no card for the 2. -/
theorem fit_misses_two_full_cards :
    Placeable (collectCards twoCards).get (fun i => ((collectCards twoCards).get i).hostname)
      (sortDemands [tenths 5, tenths 4, tenths 3, tenths 3, tenths 3, tenths 2]) ∧
    (nodeDevicesFeasibility twoCards []
      (sortDemands [tenths 5, tenths 4, tenths 3, tenths 3, tenths 3, tenths 2])).1 = .retry := by
  have hsort : sortDemands [tenths 5, tenths 4, tenths 3, tenths 3, tenths 3, tenths 2]
      = [tenths 5, tenths 4, tenths 3, tenths 3, tenths 3, tenths 2] := by decide +kernel
  rw [hsort]
  have hcards : ∀ i, ((collectCards twoCards).get i).coveredBy (tenths 1) = true ∧
      ((collectCards twoCards).get i).TakesSlices := by decide +kernel
  have hserve : ∀ i k, Serves (collectCards twoCards).get
      (fun i => ((collectCards twoCards).get i).hostname) (tenths k) (.slices [i]) := fun i k =>
    ⟨rfl, rfl, fun j hj => hcards j⟩
  let x : Fin (collectCards twoCards).length := ⟨0, by decide⟩
  let y : Fin (collectCards twoCards).length := ⟨1, by decide⟩
  refine ⟨⟨[.slices [x], .slices [y], .slices [x], .slices [y], .slices [y], .slices [x]],
    .cons (hserve x 5) (.cons (hserve y 4) (.cons (hserve x 3) (.cons (hserve y 3)
      (.cons (hserve y 3) (.cons (hserve x 2) .nil))))), by decide +kernel⟩, by decide +kernel⟩

end GpuStack
