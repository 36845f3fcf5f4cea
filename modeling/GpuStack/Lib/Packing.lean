import Mathlib

/-!
# Lib/Packing — best-fit decreasing on sizes that nest

Items are put into bins one by one, each into the fullest bin that still takes it, larger items
first.  Such a packing may leave no room for an item although another packing has room for all.  It
does not when the sizes *nest*: of two different sizes the smaller divides the larger, or the two
together exceed every bin.

The proof is a weight argument.  `rounded` rounds sizes and capacities down to multiples of the size
`u` that found no room — up to a threshold `θ` for sizes so large that nothing of size `u` fits beside
them — so that no bin can hold more weight than its own (`sum_rounded_le`), while every bin of a
best-fit packing that is blocked for `u` is full by weight (`rounded_le_sum`).
-/

namespace Packing

open List

variable {ι : Type*} [DecidableEq ι]

/-! ## Contents -/

/-- The sizes put into a bin. -/
def content (t : List (ι × ℕ)) (i : ι) : List ℕ := (t.filter fun x => x.1 = i).map (·.2)

/-- What is put into a bin altogether. -/
def load (t : List (ι × ℕ)) (i : ι) : ℕ := (content t i).sum

variable {t t' : List (ι × ℕ)} {i : ι} {bins bins₂ : Finset ι} {cap : ι → ℕ} {u R : ℕ}

theorem mem_content {s : ℕ} : s ∈ content t i ↔ (i, s) ∈ t := by
  simp [content]

theorem content_append (t t' : List (ι × ℕ)) (i : ι) :
    content (t ++ t') i = content t i ++ content t' i := by
  simp [content]

theorem content_singleton (i j : ι) (s : ℕ) : content [(i, s)] j = if i = j then [s] else [] := by
  by_cases h : i = j <;> simp [content, h]

theorem load_append (t t' : List (ι × ℕ)) (i : ι) : load (t ++ t') i = load t i + load t' i := by
  rw [load, content_append, sum_append, load, load]

theorem load_singleton (i j : ι) (s : ℕ) : load [(i, s)] j = if i = j then s else 0 := by
  rw [load, content_singleton]
  split <;> simp

theorem load_filter_le (f : ι × ℕ → Bool) (t : List (ι × ℕ)) (i : ι) :
    load (t.filter f) i ≤ load t i :=
  (((filter_sublist).filter _).map _).sum_le_sum fun _ _ => Nat.zero_le _

theorem sum_map_le_of_subperm (w : ℕ → ℕ) {xs ys : List ℕ} (h : xs.Subperm ys) :
    (xs.map w).sum ≤ (ys.map w).sum := by
  obtain ⟨l, hperm, hsub⟩ := h
  rw [← (hperm.map w).sum_eq]
  exact (hsub.map w).sum_le_sum fun _ _ => Nat.zero_le _

/-- Over bins that hold everything, weights add up to those of all items. -/
theorem sum_content (w : ℕ → ℕ) {S : Finset ι} : ∀ {t : List (ι × ℕ)}, (∀ x ∈ t, x.1 ∈ S) →
      ∑ i ∈ S, ((content t i).map w).sum = (t.map fun x => w x.2).sum
  | [], _ => Finset.sum_eq_zero fun i _ => rfl
  | x :: t, h => by
    have hx : ∑ i ∈ S, ((content [x] i).map w).sum = w x.2 := by
      rw [Finset.sum_eq_single_of_mem x.1 (h x (.head _)) fun j _ hj => ?_]
      · rw [content_singleton, if_pos rfl, map_singleton, sum_singleton]
      · rw [content_singleton, if_neg hj.symm, map_nil, sum_nil]
    have ih := sum_content w fun y hy => h y (.tail _ hy)
    rw [map_cons, sum_cons, ← hx, ← ih, ← Finset.sum_add_distrib]
    refine Finset.sum_congr rfl fun i _ => ?_
    rw [← singleton_append, content_append, map_append, sum_append]

theorem content_map_pair (is : List ι) (s : ℕ) (i : ι) :
    content (is.map (·, s)) i = List.replicate (is.count i) s := by
  induction is with
  | nil => rfl
  | cons j is ih =>
    rw [map_cons, ← singleton_append, content_append, content_singleton, ih]
    split
    · rename_i h
      rw [h, count_cons_self, replicate_succ, singleton_append]
    · rename_i h
      rw [count_cons_of_ne h, nil_append]

/-- The last time an empty bin of a kind was opened. -/
theorem exists_last_opened {W : Finset ι} (h : ∃ j ∈ W, content t j ≠ []) :
    ∃ p i s q, t = p ++ (i, s) :: q ∧ i ∈ W ∧ content p i = [] ∧
      ∀ j ∈ W, content t j ≠ [] → j = i ∨ content p j ≠ [] := by
  induction t using reverseRecOn with
  | nil => exact absurd rfl h.choose_spec.2
  | append_singleton t x ih =>
    by_cases hnew : x.1 ∈ W ∧ content t x.1 = []
    · refine ⟨t, x.1, x.2, [], rfl, hnew.1, hnew.2, fun j _ hj => ?_⟩
      rw [content_append, content_singleton x.1 j x.2] at hj
      by_cases hxj : x.1 = j
      · exact .inl hxj.symm
      · rw [if_neg hxj, append_nil] at hj
        exact .inr hj
    · have hold : ∀ j ∈ W, content (t ++ [x]) j ≠ [] → content t j ≠ [] := fun j hj hne hnil => by
        rw [content_append, content_singleton x.1 j x.2, hnil, nil_append] at hne
        by_cases hxj : x.1 = j
        · exact hnew ⟨hxj ▸ hj, hxj ▸ hnil⟩
        · exact hne (if_neg hxj)
      obtain ⟨j, hj, hne⟩ := h
      obtain ⟨p, i, s, q, rfl, hi, hp, hall⟩ := ih ⟨j, hj, hold j hj hne⟩
      exact ⟨p, i, s, q ++ [x], by simp, hi, hp, fun k hk hne => hall k hk (hold k hk hne)⟩

/-! ## Best fit -/

/-- **Best fit**: every item goes into a bin it fits, and of those into one with the least room. -/
def BestFit (cap : ι → ℕ) (bins : Finset ι) (t : List (ι × ℕ)) : Prop :=
  ∀ p i s q, t = p ++ (i, s) :: q → load p i + s ≤ cap i ∧
    ∀ j ∈ bins, load p j + s ≤ cap j → cap i - load p i ≤ cap j - load p j

theorem BestFit.of_append (h : BestFit cap bins (t ++ t')) : BestFit cap bins t := by
  intro p i s q ht
  exact h p i s (q ++ t') (by rw [ht, append_assoc, cons_append])

theorem BestFit.mono (h : BestFit cap bins t) (hsub : bins₂ ⊆ bins) :
    BestFit cap bins₂ t := fun p i s q ht =>
  ⟨(h p i s q ht).1, fun j hj => (h p i s q ht).2 j (hsub hj)⟩

theorem bestFit_nil (cap : ι → ℕ) (bins : Finset ι) : BestFit cap bins [] := by
  intro p i s q h
  simp at h

/-- One more item placed. -/
theorem BestFit.concat (h : BestFit cap bins t) {s : ℕ} (hfit : load t i + s ≤ cap i)
    (hmin : ∀ j ∈ bins, load t j + s ≤ cap j → cap i - load t i ≤ cap j - load t j) :
    BestFit cap bins (t ++ [(i, s)]) := by
  intro p i' s' q hsplit
  obtain rfl | ⟨q', y, rfl⟩ := eq_nil_or_concat q
  · obtain ⟨rfl, hx⟩ := append_inj' hsplit rfl
    obtain ⟨rfl, rfl⟩ := Prod.mk.inj (singleton_inj.mp hx)
    exact ⟨hfit, hmin⟩
  · rw [concat_eq_append, ← cons_append, ← append_assoc] at hsplit
    obtain ⟨rfl, -⟩ := append_inj' hsplit rfl
    exact h p i' s' q' rfl

/-! ## Multiples -/

theorem add_le_of_dvd_of_lt {a b : ℕ} (ha : u ∣ a) (hb : u ∣ b) (h : a < b) : a + u ≤ b := by
  have := Nat.le_of_dvd (by omega) (Nat.dvd_sub hb ha)
  omega

/-- Rounding down gives the largest multiple. -/
theorem le_div_mul_of_dvd {a x : ℕ} (hu : 0 < u) (ha : u ∣ a) (h : a ≤ x) : a ≤ x / u * u := by
  obtain ⟨k, rfl⟩ := ha
  rw [Nat.mul_comm] at h ⊢
  exact Nat.mul_le_mul_right u ((Nat.le_div_iff_mul_le hu).mpr h)

theorem lt_div_mul_add (hu : 0 < u) (x : ℕ) : x < x / u * u + u := by
  have := Nat.lt_div_mul_add hu (a := x)
  omega

/-! ## Weights -/

/-- The weight of a size, and of a capacity, up to `R`: rounded down to a multiple of `u`, unless it
is so large that nothing of size `u` fits beside it.  Of those, the ones from `θ` on weigh as much as
the largest multiple within `R`, the others one step less. -/
def rounded (R u θ x : ℕ) : ℕ :=
  if R < x + u then (if θ ≤ x then R / u * u else R / u * u - u) else x / u * u

/-- A size that nests with `u`. -/
def NestsWith (R u x : ℕ) : Prop := u ∣ x ∨ R < x + u

section Weights

variable {R u θ x : ℕ} {xs : List ℕ}

theorem div_mul_le_rounded (hu : 0 < u) (hθ : θ ≤ R / u * u) (hx : x ≤ R) :
    x / u * u ≤ rounded R u θ x := by
  have hmul : u ∣ x / u * u := Nat.dvd_mul_left ..
  have hle := Nat.div_mul_le_self x u
  rw [rounded]
  split_ifs
  · exact le_div_mul_of_dvd hu hmul (hle.trans hx)
  · have := add_le_of_dvd_of_lt hmul (Nat.dvd_mul_left u (R / u)) (by omega)
    omega
  · exact le_rfl

theorem rounded_mono (hu : 0 < u) {y : ℕ} (h : x ≤ y) : rounded R u θ x ≤ rounded R u θ y := by
  have hdiv : x / u * u ≤ y / u * u := Nat.mul_le_mul_right u (Nat.div_le_div_right h)
  have hstep : x + u ≤ R → x / u * u + u ≤ R / u * u := fun hx =>
    le_div_mul_of_dvd hu ((Nat.dvd_mul_left ..).add dvd_rfl)
      ((Nat.add_le_add_right (Nat.div_mul_le_self x u) u).trans hx)
  rw [rounded, rounded]
  split_ifs <;> omega

variable (hxs : ∀ x ∈ xs, u ≤ x ∧ NestsWith R u x)
include hxs

/-- Beside a size too large for another one nothing stands. -/
theorem sum_map_of_large (hsum : xs.sum ≤ R) (hx : x ∈ xs) (hlarge : R < x + u) (w : ℕ → ℕ) :
    (xs.map w).sum = w x := by
  have herase : xs.erase x = [] := by
    refine eq_nil_iff_forall_not_mem.mpr fun y hy => ?_
    have hsplit : x + (xs.erase x).sum = xs.sum := sum_erase hx
    have hy' := le_sum_of_mem hy
    have := (hxs y (mem_of_mem_erase hy)).1
    omega
  rw [← sum_map_erase w hx, herase, map_nil, sum_nil, Nat.add_zero]

/-- Sizes none of which is large weigh what they are. -/
theorem map_rounded_of_small (θ : ℕ) (hsmall : ∀ x ∈ xs, ¬ R < x + u) :
    xs.map (rounded R u θ) = xs ∧ u ∣ xs.sum := by
  have hdvd : ∀ x ∈ xs, u ∣ x := fun x hx => (hxs x hx).2.resolve_right (hsmall x hx)
  refine ⟨?_, dvd_sum hdvd⟩
  refine (map_congr_left fun x hx => ?_).trans (map_id xs)
  rw [id, rounded, if_neg (hsmall x hx), Nat.div_mul_cancel (hdvd x hx)]

/-- **No bin holds more weight than its own.** -/
theorem sum_rounded_le (hu : 0 < u) (hθ : θ ≤ R / u * u) {c : ℕ} (hsum : xs.sum ≤ c)
    (hc : c ≤ R) : (xs.map (rounded R u θ)).sum ≤ rounded R u θ c := by
  by_cases hlarge : ∃ x ∈ xs, R < x + u
  · obtain ⟨x, hx, hlarge⟩ := hlarge
    rw [sum_map_of_large hxs (hsum.trans hc) hx hlarge]
    exact rounded_mono hu ((le_sum_of_mem hx).trans hsum)
  · obtain ⟨hmap, hdvd⟩ := map_rounded_of_small hxs θ fun x hx h => hlarge ⟨x, hx, h⟩
    rw [hmap]
    exact (le_div_mul_of_dvd hu hdvd hsum).trans (div_mul_le_rounded hu hθ hc)

/-- **A blocked bin is full by weight**, unless it could have held a larger item from `θ` on. -/
theorem rounded_le_sum (hθR : R < θ + u) {c : ℕ} (hsum : xs.sum ≤ c) (hc : c ≤ R)
    (hblocked : c < xs.sum + u)
    (hhigh : θ ≤ c → (∃ x ∈ xs, θ ≤ x) ∨ R / u * u ≤ c ∧ ∀ x ∈ xs, ¬ R < x + u) :
    rounded R u θ c ≤ (xs.map (rounded R u θ)).sum := by
  have hdvdR : u ∣ R / u * u := Nat.dvd_mul_left ..
  by_cases hlarge : ∃ x ∈ xs, R < x + u
  · obtain ⟨x, hx, hlarge⟩ := hlarge
    rw [sum_map_of_large hxs (hsum.trans hc) hx hlarge]
    have hxc := (le_sum_of_mem hx).trans hsum
    have hx' : θ ≤ c → θ ≤ x := fun h => by
      obtain ⟨y, hy, hθy⟩ | ⟨-, hno⟩ := hhigh h
      · -- `y` stands beside `x` only if it is `x`
        have := sum_map_of_large hxs (hsum.trans hc) hx hlarge id
        rw [map_id] at this
        have := le_sum_of_mem hy
        simp only [id] at *
        omega
      · exact absurd hlarge (hno x hx)
    rw [rounded, rounded, if_pos hlarge, if_pos (by omega)]
    split_ifs <;> omega
  · have hsmall : ∀ x ∈ xs, ¬ R < x + u := fun x hx h => hlarge ⟨x, hx, h⟩
    obtain ⟨hmap, hdvd⟩ := map_rounded_of_small hxs θ hsmall
    rw [hmap, rounded]
    split_ifs with hcl hθc
    · obtain ⟨x, hx, hθx⟩ | ⟨hRc, -⟩ := hhigh hθc
      · exact absurd (by omega) (hsmall x hx)
      · by_contra hlt
        have := add_le_of_dvd_of_lt hdvd hdvdR (by omega)
        omega
    · by_contra hlt
      have := add_le_of_dvd_of_lt (hdvd.add dvd_rfl) hdvdR (by omega)
      have := Nat.div_mul_le_self R u
      omega
    · by_contra hlt
      have := add_le_of_dvd_of_lt hdvd (Nat.dvd_mul_left u (c / u)) (by omega)
      have := Nat.div_mul_le_self c u
      omega

end Weights

/-! ## Exactness -/

/-- Larger items first: a large item is given an empty bin only if every smaller bin it fits holds
one at least as large. -/
theorem BestFit.occupied {e : ℕ} {b : ι} (h : BestFit cap bins t)
    (hdec : t.Pairwise fun x y => y.2 ≤ x.2) (hcap : cap b ≤ R) (hb : (b, e) ∈ t) (hu : u ≤ e)
    (hlarge : R < e + u) (hi : i ∈ bins) (hlt : cap i < cap b) (hei : e ≤ cap i) :
    ∃ x ∈ content t i, e ≤ x := by
  obtain ⟨p, q, rfl⟩ := append_of_mem hb
  obtain ⟨hfit, hbest⟩ := h p b e q rfl
  have hload : ∀ j, load p j ≠ 0 → ∃ x ∈ content p j, e ≤ x := fun j hj => by
    obtain ⟨x, hx⟩ := exists_mem_of_ne_nil (content p j) fun hnil => hj (by
      rw [load, hnil, sum_nil])
    exact ⟨x, hx, (pairwise_append.mp hdec).2.2 _ (mem_content.mp hx) _ (.head _)⟩
  have hempty : load p b = 0 := by
    by_contra hne
    obtain ⟨x, hx, hex⟩ := hload b hne
    have : x ≤ load p b := le_sum_of_mem hx
    omega
  have hfull : ¬ load p i + e ≤ cap i := fun hroom => by
    have := hbest i hi hroom
    omega
  obtain ⟨x, hx, hex⟩ := hload i (by omega)
  exact ⟨x, by rw [content_append]; exact mem_append_left _ hx, hex⟩

/-- In a best-fit packing with larger items first, the bins from some threshold on hold an item from
it on, or are large enough for the largest multiple and hold no large item. -/
theorem BestFit.exists_threshold (h : BestFit cap bins t) (hdec : t.Pairwise fun x y => y.2 ≤ x.2)
    (hu : 0 < u) (hmin : ∀ x ∈ t, u ≤ x.2) (hmem : ∀ x ∈ t, x.1 ∈ bins)
    (hcap : ∀ i ∈ bins, cap i ≤ R) : ∃ θ, R < θ + u ∧ θ ≤ R / u * u ∧ ∀ i ∈ bins, θ ≤ cap i →
      (∃ x ∈ content t i, θ ≤ x) ∨ R / u * u ≤ cap i ∧ ∀ x ∈ content t i, ¬ R < x + u := by
  classical
  by_cases hex : ∃ e, ∃ i, (i, e) ∈ t ∧ R < e + u ∧ e < R / u * u ∧ R / u * u ≤ cap i
  · -- the smallest large item below the largest multiple that got a bin of that size
    obtain ⟨e, ⟨b, hb, hlarge, hlt, hbcap⟩, hleast⟩ :
        ∃ e, (∃ i, (i, e) ∈ t ∧ R < e + u ∧ e < R / u * u ∧ R / u * u ≤ cap i) ∧
          ∀ e', (∃ i, (i, e') ∈ t ∧ R < e' + u ∧ e' < R / u * u ∧ R / u * u ≤ cap i) → e ≤ e' :=
      ⟨Nat.find hex, Nat.find_spec hex, fun _ h => Nat.find_min' hex h⟩
    refine ⟨e, hlarge, hlt.le, fun i hi hei => ?_⟩
    rcases lt_or_ge (cap i) (R / u * u) with hicap | hicap
    · exact .inl (h.occupied hdec (hcap b (hmem _ hb)) hb (hmin _ hb) hlarge hi
        (hicap.trans_le hbcap) hei)
    · by_cases hsome : ∃ x ∈ content t i, R < x + u
      · obtain ⟨x, hx, hxl⟩ := hsome
        refine .inl ⟨x, hx, ?_⟩
        rcases lt_or_ge x (R / u * u) with hxR | hxR
        · exact hleast x ⟨i, mem_content.mp hx, hxl, hxR, hicap⟩
        · exact hlt.le.trans hxR
      · exact .inr ⟨hicap, fun x hx hxl => hsome ⟨x, hx, hxl⟩⟩
  · refine ⟨R / u * u, lt_div_mul_add hu R, le_rfl, fun i _ hi => ?_⟩
    by_cases hsome : ∃ x ∈ content t i, R < x + u
    · obtain ⟨x, hx, hxl⟩ := hsome
      exact .inl ⟨x, hx, not_lt.mp fun hlt => hex ⟨x, i, mem_content.mp hx, hxl, hlt, hi⟩⟩
    · exact .inr ⟨hi, fun x hx hxl => hsome ⟨x, hx, hxl⟩⟩

/-- The items are in the bins, and no bin holds more than it can. -/
structure Packs (cap : ι → ℕ) (bins : Finset ι) (t : List (ι × ℕ)) : Prop where
  mem : ∀ x ∈ t, x.1 ∈ bins
  le : ∀ i ∈ bins, load t i ≤ cap i

/-- Bins that replace others of the largest capacity, one for one, weigh no more. -/
theorem sum_rounded_exchange (θ : ℕ) (hu : 0 < u) (hcap : ∀ i ∈ bins₂, cap i ≤ R)
    (hfull : ∀ i ∈ bins \ bins₂, cap i = R) (hcard : (bins₂ \ bins).card ≤ (bins \ bins₂).card) :
    ∑ i ∈ bins₂, rounded R u θ (cap i) ≤ ∑ i ∈ bins, rounded R u θ (cap i) := by
  have hnew : ∑ i ∈ bins₂ \ bins, rounded R u θ (cap i) ≤ (bins₂ \ bins).card * rounded R u θ R :=
    Finset.sum_le_card_nsmul _ _ _ fun i hi =>
      rounded_mono hu (hcap i (Finset.mem_sdiff.mp hi).1)
  have hold : ∑ i ∈ bins \ bins₂, rounded R u θ (cap i) = (bins \ bins₂).card * rounded R u θ R :=
    Finset.sum_const_nat fun i hi => by rw [hfull i hi]
  have hmul := Nat.mul_le_mul_right (rounded R u θ R) hcard
  rw [← Finset.sum_inter_add_sum_sdiff bins₂ bins, ← Finset.sum_inter_add_sum_sdiff bins bins₂,
    Finset.inter_comm bins₂ bins]
  omega

/-- **Best-fit decreasing is exact on nesting sizes**: when it has no room for an item of size `u`,
no packing has room for what it placed and that item — not even on other bins, as long as only bins
of the largest capacity were replaced. -/
theorem BestFit.not_packs (h : BestFit cap bins t) (hpack : Packs cap bins t)
    (hdec : t.Pairwise fun x y => y.2 ≤ x.2) (hu : 0 < u) (hmin : ∀ x ∈ t, u ≤ x.2)
    (hcap : ∀ i ∈ bins, cap i ≤ R) (hblocked : ∀ i ∈ bins, cap i < load t i + u)
    (hcap' : ∀ i ∈ bins₂, cap i ≤ R) (hfull : ∀ i ∈ bins \ bins₂, cap i = R)
    (hcard : (bins₂ \ bins).card ≤ (bins \ bins₂).card)
    (hnest : ∀ x ∈ t', u ≤ x.2 → NestsWith R u x.2)
    (hsub : (u :: t.map (·.2)).Subperm (t'.map (·.2))) : ¬ Packs cap bins₂ t' := by
  intro hpack'
  obtain ⟨θ, hθR, hθ, hhigh⟩ := h.exists_threshold hdec hu hmin hpack.mem hcap
  have hmem' : ∀ s ∈ u :: t.map (·.2), u ≤ s ∧ NestsWith R u s := fun s hs => by
    obtain ⟨x, hx, rfl⟩ := mem_map.mp (hsub.subset hs)
    have hle : u ≤ x.2 := by
      obtain heq | hs := mem_cons.mp hs
      · exact heq.ge
      · obtain ⟨y, hy, heq⟩ := mem_map.mp hs
        exact heq ▸ hmin y hy
    exact ⟨hle, hnest x hx hle⟩
  -- by weight the bins of the best-fit packing are full
  have hgreedy : ∑ i ∈ bins, rounded R u θ (cap i) ≤ (t.map fun x => rounded R u θ x.2).sum := by
    rw [← sum_content (rounded R u θ) hpack.mem]
    refine Finset.sum_le_sum fun i hi => ?_
    have hcontent : ∀ x ∈ content t i, u ≤ x ∧ NestsWith R u x := fun x hx =>
      hmem' x (.tail _ (mem_map.mpr ⟨_, mem_content.mp hx, rfl⟩))
    exact rounded_le_sum hcontent hθR (hpack.le i hi) (hcap i hi) (hblocked i hi) (hhigh i hi)
  -- and the items of the other packing from `u` on weigh no more than its bins
  have hother : ((t'.filter fun x => u ≤ x.2).map fun x => rounded R u θ x.2).sum
      ≤ ∑ i ∈ bins₂, rounded R u θ (cap i) := by
    rw [← sum_content (rounded R u θ) fun x hx => hpack'.mem x (mem_of_mem_filter hx)]
    refine Finset.sum_le_sum fun i hi => ?_
    have hcontent : ∀ x ∈ content (t'.filter fun x => u ≤ x.2) i, u ≤ x ∧ NestsWith R u x :=
      fun x hx => by
        obtain ⟨hx, hle⟩ := mem_filter.mp (mem_content.mp hx)
        exact ⟨of_decide_eq_true hle, hnest _ hx (of_decide_eq_true hle)⟩
    exact sum_rounded_le hcontent hu hθ ((load_filter_le _ _ i).trans (hpack'.le i hi)) (hcap' i hi)
  have hmore : rounded R u θ u + (t.map fun x => rounded R u θ x.2).sum
      ≤ ((t'.filter fun x => u ≤ x.2).map fun x => rounded R u θ x.2).sum := by
    have hfilter := hsub.filter fun s => u ≤ s
    rw [filter_eq_self.mpr fun s hs => decide_eq_true (hmem' s hs).1, filter_map] at hfilter
    have := sum_map_le_of_subperm (rounded R u θ) hfilter
    simpa [map_map, Function.comp_def] using this
  have huR : u ≤ R := by
    obtain ⟨x, hx, hxu⟩ := mem_map.mp (hsub.subset (.head _))
    have hx' : x.2 ≤ load t' x.1 := le_sum_of_mem (mem_content.mpr hx)
    exact hxu ▸ hx'.trans ((hpack'.le _ (hpack'.mem x hx)).trans (hcap' _ (hpack'.mem x hx)))
  have hpos := div_mul_le_rounded hu hθ huR
  rw [Nat.div_self hu, Nat.one_mul] at hpos
  have hexchange := sum_rounded_exchange θ hu hcap' hfull hcard
  omega

/-- **Best-fit decreasing opens no largest bin too many**: when some of the largest bins `W` have been
opened and fewer than wanted are left, no packing of the same items keeps as many of them closed. -/
theorem BestFit.not_packs_of_opened {W X : Finset ι} (h : BestFit cap bins t)
    (hpack : Packs cap bins t) (hdec : t.Pairwise fun x y => y.2 ≤ x.2) (hpos : ∀ x ∈ t, 0 < x.2)
    (hcap : ∀ i ∈ bins, cap i ≤ R) (hlargest : ∀ i ∈ bins, cap i = R → i ∈ W)
    (hW : ∀ i ∈ W, cap i = R) (hX : X ⊆ W) (hopened : ∃ j ∈ W, content t j ≠ [])
    (hcard : W.card < X.card + (W.filter fun j => content t j ≠ []).card)
    (hnest : ∀ x ∈ t', ∀ y ∈ t, y.2 ≤ x.2 → NestsWith R y.2 x.2)
    (hsub : (t.map (·.2)).Subperm (t'.map (·.2))) : ¬ Packs cap (bins \ X) t' := by
  obtain ⟨p, i, s, q, rfl, hi, hpi, hlast⟩ := exists_last_opened hopened
  have his : (i, s) ∈ p ++ (i, s) :: q := by simp
  -- the bins in use when the last of them was opened
  set B := W.filter fun j => content p j ≠ [] with hB
  have hBcard : W.card ≤ X.card + B.card := by
    have hsubset : (W.filter fun j => content (p ++ (i, s) :: q) j ≠ []) ⊆ insert i B := by
      intro j hj
      obtain ⟨hj, hne⟩ := Finset.mem_filter.mp hj
      rw [Finset.mem_insert, hB, Finset.mem_filter]
      exact (hlast j hj hne).imp_right fun h => ⟨hj, h⟩
    have := (Finset.card_le_card hsubset).trans (Finset.card_insert_le i B)
    omega
  have hp : Packs cap bins p := ⟨fun x hx => hpack.mem x (mem_append_left _ hx), fun j hj => by
    have := hpack.le j hj
    rw [load_append] at this
    omega⟩
  have hmem : ∀ x ∈ p, x.1 ∈ bins \ W ∪ B := fun x hx => by
    by_cases hxW : x.1 ∈ W
    · refine Finset.mem_union_right _ (Finset.mem_filter.mpr ⟨hxW, ?_⟩)
      exact ne_nil_of_mem (mem_content.mpr hx)
    · exact Finset.mem_union_left _ (Finset.mem_sdiff.mpr ⟨hp.mem x hx, hxW⟩)
  have hBbins : B ⊆ bins := fun j hj => by
    obtain ⟨y, hy⟩ := exists_mem_of_ne_nil _ (Finset.mem_filter.mp hj).2
    exact hp.mem _ (mem_content.mp hy)
  have huse : bins \ W ∪ B ⊆ bins := Finset.union_subset Finset.sdiff_subset hBbins
  have hmin : ∀ x ∈ p, s ≤ x.2 := fun x hx =>
    (pairwise_append.mp hdec).2.2 x hx (i, s) (by simp)
  have hblocked : ∀ j ∈ bins \ W ∪ B, cap j < load p j + s := by
    intro j hj
    by_contra hroom
    have hbest := (h p i s q rfl).2 j (huse hj) (by omega)
    have hcapj := hcap j (huse hj)
    have hempty : load p i = 0 := by rw [load, hpi, sum_nil]
    have hcapi := hW i hi
    rcases Finset.mem_union.mp hj with hj | hj
    · exact (Finset.mem_sdiff.mp hj).2 (hlargest j (huse (Finset.mem_union_left _ hj)) (by omega))
    · obtain ⟨y, hy⟩ := exists_mem_of_ne_nil _ (Finset.mem_filter.mp hj).2
      have h₁ : y ≤ load p j := le_sum_of_mem hy
      have h₂ := hpos (j, y) (mem_append_left _ (mem_content.mp hy))
      simp only at h₂
      omega
  have hbefore : BestFit cap bins p := h.of_append
  refine (hbefore.mono huse).not_packs ⟨hmem, fun j hj => hp.le j (huse hj)⟩
    (pairwise_append.mp hdec).1 (hpos _ his) hmin (fun j hj => hcap j (huse hj)) hblocked
    (fun j hj => hcap j (Finset.mem_sdiff.mp hj).1) (fun j hj => ?_) ?_
    (fun x hx => hnest x hx _ his) ?_
  · -- a bin of the first packing that the other may not use is one of the largest
    obtain ⟨hj, hnot⟩ := Finset.mem_sdiff.mp hj
    refine hW j (hX ?_)
    by_contra hjX
    exact hnot (Finset.mem_sdiff.mpr ⟨huse hj, hjX⟩)
  · have hleft : (bins \ X) \ (bins \ W ∪ B) ⊆ W \ (X ∪ B) := fun j hj => by
      simp only [Finset.mem_sdiff, Finset.mem_union, not_or, not_and, not_not] at hj ⊢
      exact ⟨hj.2.1 hj.1.1, hj.1.2, hj.2.2⟩
    have hright : X ∩ B ⊆ (bins \ W ∪ B) \ (bins \ X) := fun j hj => by
      simp only [Finset.mem_sdiff, Finset.mem_union, Finset.mem_inter, not_and, not_not] at hj ⊢
      exact ⟨.inr hj.2, fun _ => hj.1⟩
    have hXB : X ∪ B ⊆ W := Finset.union_subset hX (Finset.filter_subset _ _)
    have h₁ := Finset.card_le_card hleft
    have h₂ := Finset.card_le_card hright
    have h₃ := Finset.card_union_add_card_inter X B
    have h₄ := Finset.card_sdiff_of_subset hXB
    have h₅ := Finset.card_le_card hXB
    omega
  · refine List.Subperm.trans ?_ hsub
    have hprefix : (p.map (·.2) ++ [s]).Sublist ((p ++ (i, s) :: q).map (·.2)) := by simp
    exact (perm_append_singleton s _).symm.subperm.trans hprefix.subperm

end Packing
