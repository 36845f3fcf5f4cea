import GpuStack.Admission.Placement

/-!
# Admission/Sound — a fit that answers Ready has found a placement

The budgets are the witness: after every demand fitted so far they are what some grants ask of the
cards, and every card holds its budget.  Each fitter keeps that (`fitSlicedDemand_sound` and its
siblings), and over a list of demands the grants collect into one joint placement
(`fitDemands_sound`).

The fit groups the cards of a shared holder by hostname.  The placement found is on one *node* per
holder when no two nodes of the pool that could serve a holder together go by one hostname
(`Separated`) — two nodes whose hostname could not be read do, and then the answer can be Ready with
no placement behind it.
-/

namespace GpuStack

open List

variable {n : ℕ} {cards : Fin n → CardLedger}

/-! ## Budgets as loads -/

/-- What a budget has given away, as a load. -/
def CardBudget.load (b : CardBudget) : Load where
  wholes := if b.whole then 1 else 0
  shares := b.shares
  units := b.units
  slices := b.slices

/-- Every card holds its budget. -/
def Within (cards : Fin n → CardLedger) (budgets : Budgets n) : Prop :=
  ∀ i, (cards i).Holds (budgets i).load

theorem within_empty : Within cards fun _ => {} := fun i => (cards i).holds_zero

variable {i : Fin n} {budgets budgets' : Budgets n} {c : CardLedger} {d : FamilyDemand}
  {message : String}

/-- Changing one budget is a matter of one card. -/
theorem Within.update (h : Within cards budgets) {b : CardBudget} (hi : (cards i).Holds b.load) :
    Within cards (Function.update budgets i b) := by
  intro j
  rcases eq_or_ne j i with rfl | hne
  · rwa [Function.update_self]
  · rw [Function.update_of_ne hne]
    exact h j

/-- **What a fitted demand leaves**: a grant that serves it, on top of what was given before. -/
def Granted {κ : Type*} (cards : Fin n → CardLedger) (host : Fin n → κ) (d : FamilyDemand)
    (before after : Budgets n) : Prop :=
  Within cards after ∧ ∃ g : Grant n, Serves cards host d g ∧
    ∀ i, (before i).load + g.load d i ≤ (after i).load

/-! ## Sliced -/

/-- The card has room for one more slice of the demand. -/
structure HasSliceRoom (cards : Fin n → CardLedger) (budgets : Budgets n) (d : FamilyDemand)
    (i : Fin n) : Prop where
  covered : (cards i).coveredBy d = true
  takes : (cards i).TakesSlices
  whole : (budgets i).whole = false
  shares : (budgets i).shares = 0
  slots : ((budgets i).slices : ℤ) < (cards i).freeSlots
  units : ((budgets i).units : ℤ) + d.unitsPerCard ≤ (cards i).remaining

theorem freeSliceUnits_of_takes (h : c.TakesSlices) (hs : 0 < c.freeSlots) :
    c.freeSliceUnits = c.remaining := by
  rw [CardLedger.freeSliceUnits, h.1]
  rcases h.2 with hm | hm <;> simp [hm, not_le.mpr hs]

theorem takes_of_freeSliceUnits (h : 0 ≤ c.freeSliceUnits) :
    c.TakesSlices ∧ 0 < c.freeSlots := by
  rw [CardLedger.freeSliceUnits] at h
  split at h
  · exact absurd h (by decide)
  · rename_i hno
    simp only [Bool.or_eq_true, Bool.not_eq_true', Bool.and_eq_true, decide_eq_true_eq, not_or,
      not_le, ne_eq, not_and_or, not_not, Bool.not_eq_false] at hno
    exact ⟨hno.1, hno.2⟩

/-- **Room, as the fit sees it**: the free units of a card cover a slice. -/
theorem le_freeUnits_iff :
    (d.unitsPerCard : ℤ) ≤ freeUnits cards budgets d i ↔ HasSliceRoom cards budgets d i := by
  constructor
  · intro h
    rw [freeUnits] at h
    split at h
    · exact absurd h (by omega)
    · rename_i hno
      simp only [Bool.or_eq_true, decide_eq_true_eq, Bool.not_eq_true', not_or, not_lt, not_le,
        Bool.not_eq_true, Bool.not_eq_false] at hno
      obtain ⟨⟨⟨⟨hfree, hwhole⟩, hshares⟩, hcov⟩, hslots⟩ := hno
      obtain ⟨htakes, hpos⟩ := takes_of_freeSliceUnits hfree
      rw [freeSliceUnits_of_takes htakes hpos] at h
      exact ⟨hcov, htakes, hwhole, Nat.le_zero.mp hshares, hslots, by omega⟩
  · rintro ⟨hcov, htakes, hwhole, hshares, hslots, hunits⟩
    have hpos : 0 < (cards i).freeSlots := by omega
    rw [freeUnits, freeSliceUnits_of_takes htakes hpos]
    rw [if_neg]
    · omega
    · simp only [hwhole, hshares, hcov, Bool.or_eq_true, decide_eq_true_eq, not_or, not_lt, not_le,
        Bool.not_true, lt_irrefl, not_false_eq_true, and_true, Bool.false_eq_true]
      omega

/-- The free units of a card with room. -/
theorem HasSliceRoom.freeUnits_eq (h : HasSliceRoom cards budgets d i) :
    freeUnits cards budgets d i = (cards i).remaining - (budgets i).units := by
  have hle := le_freeUnits_iff.mpr h
  rw [freeUnits] at hle ⊢
  split
  · rename_i hyes
    rw [if_pos hyes] at hle
    exact absurd hle (by omega)
  · rw [freeSliceUnits_of_takes h.takes (by have := h.slots; omega)]

/-- **The best card** has room, and no card with room has fewer units left. -/
theorem bestCard_spec (h : bestCard cards budgets d = some i) :
    HasSliceRoom cards budgets d i ∧ ∀ j, HasSliceRoom cards budgets d j →
      (cards i).remaining - (budgets i).units ≤ (cards j).remaining - (budgets j).units := by
  obtain ⟨-, hroom, hmin⟩ := Select.firstMin_spec h
  have hi := le_freeUnits_iff.mp hroom
  refine ⟨hi, fun j hj => ?_⟩
  have := hmin j (mem_finRange j) (le_freeUnits_iff.mpr hj)
  rwa [hi.freeUnits_eq, hj.freeUnits_eq] at this

theorem bestCard_eq_none :
    bestCard cards budgets d = none ↔ ∀ i, ¬ HasSliceRoom cards budgets d i := by
  rw [bestCard, Select.firstMin_eq_none]
  simp only [mem_finRange, forall_const, le_freeUnits_iff]

theorem load_giveSlice (budgets : Budgets n) (u : ℕ) (i j : Fin n) :
    (giveSlice budgets u i j).load
      = (budgets j).load + if j = i then { units := u, slices := 1 } else 0 := by
  rw [giveSlice]
  rcases eq_or_ne j i with rfl | hne
  · rw [Function.update_self, if_pos rfl]
    rfl
  · rw [Function.update_of_ne hne, if_neg hne]
    rfl

/-- A card with room holds one more slice. -/
theorem Within.giveSlice (h : Within cards budgets) (hroom : HasSliceRoom cards budgets d i) :
    Within cards (giveSlice budgets d.unitsPerCard i) := by
  refine h.update ⟨?_, ?_, ?_⟩
  · exact .inl (by simp [CardBudget.load, hroom.whole])
  · exact .inl hroom.shares
  · have hu := hroom.units
    have hs := hroom.slots
    exact .inr ⟨by simp only [CardBudget.load]; push_cast; omega,
      by simp only [CardBudget.load]; push_cast; omega⟩

/-- The slices placed, card by card. -/
theorem placeSlices_sound :
    ∀ {k : ℕ} {budgets budgets' : Budgets n}, Within cards budgets →
      placeSlices cards d k budgets = (budgets', .ready) →
      Within cards budgets' ∧ ∃ is : List (Fin n), is.length = k ∧
        (∀ i ∈ is, (cards i).coveredBy d = true ∧ (cards i).TakesSlices) ∧
        ∀ i, (budgets' i).load = (budgets i).load + (Grant.slices is).load d i
  | 0, budgets, budgets', hw, h => by
      obtain ⟨rfl, -⟩ := Prod.mk.inj h
      exact ⟨hw, [], rfl, by simp, fun i => (Load.add_zero _).symm⟩
  | k + 1, budgets, budgets', hw, h => by
      rw [placeSlices] at h
      rcases hbest : bestCard cards budgets d with _ | i
      · simp [hbest] at h
      · simp only [hbest] at h
        have hroom := (bestCard_spec hbest).1
        obtain ⟨hw', is, hlen, hcov, hload⟩ := placeSlices_sound (hw.giveSlice hroom) h
        refine ⟨hw', i :: is, by simp [hlen],
          forall_mem_cons.mpr ⟨⟨hroom.covered, hroom.takes⟩, hcov⟩, fun j => ?_⟩
        rw [hload j, load_giveSlice, Load.add_assoc]
        congr 1
        rcases eq_or_ne i j with rfl | hne
        · ext <;> simp [Grant.load, Nat.mul_add, Nat.add_comm]
        · ext <;> simp [Grant.load, hne, Ne.symm hne]

theorem fitSlicedDemand_sound {κ : Type*} (host : Fin n → κ) (hd : d.family = .sliced)
    (hw : Within cards budgets) (h : fitSlicedDemand cards budgets d = (budgets', .ready, message)) :
    Granted cards host d budgets budgets' := by
  rcases hplace : placeSlices cards d d.cards budgets with ⟨b, state⟩
  simp only [fitSlicedDemand, hplace, Prod.mk.injEq] at h
  obtain ⟨rfl, rfl, -⟩ := h
  obtain ⟨hw', is, hlen, hcov, hload⟩ := placeSlices_sound hw hplace
  exact ⟨hw', .slices is, ⟨hd, hlen, hcov⟩, fun i => hload i ▸ Load.le_refl _⟩

/-! ## Exclusive -/

/-- A card the exclusive fit does not pass over. -/
theorem skipsWhole_eq_false :
    skipsWhole cards budgets d i = false ↔
      (budgets i).whole = false ∧ (budgets i).shares = 0 ∧ (budgets i).slices = 0 ∧
        (cards i).coveredBy d = true ∧ (cards i).servesFamily d.family = true ∧
        resourceMaxUnits ≤ (cards i).remaining := by
  simp only [skipsWhole, Bool.or_eq_false_iff, Bool.not_eq_false', decide_eq_false_iff_not, not_lt,
    Nat.le_zero, and_assoc]

theorem load_takeWhole (budgets : Budgets n) (h : (budgets i).whole = false) (j : Fin n) :
    (Function.update budgets i { budgets i with whole := true } j).load
      = (budgets j).load + if j = i then { wholes := 1 } else 0 := by
  rcases eq_or_ne j i with rfl | hne
  · rw [Function.update_self, if_pos rfl]
    ext <;> simp [CardBudget.load, h]
  · rw [Function.update_of_ne hne, if_neg hne]
    rfl

/-- The whole cards taken. -/
theorem takeWhole_sound :
    ∀ {is : List (Fin n)} {fit : ℕ} {budgets budgets' : Budgets n}, Within cards budgets →
      takeWhole cards d is fit budgets = (budgets', .ready) →
      Within cards budgets' ∧ ∃ js : List (Fin n), d.cards ≤ fit + js.length ∧
        (∀ j ∈ js, (cards j).coveredBy d = true ∧ (cards j).servesFamily d.family = true) ∧
        ∀ i, (budgets' i).load = (budgets i).load + (Grant.whole js).load d i
  | [], _, _, _, _, h => by simp [takeWhole] at h
  | i :: is, fit, budgets, budgets', hw, h => by
      rw [takeWhole] at h
      rcases hskip : skipsWhole cards budgets d i with _ | _
      · obtain ⟨hwhole, hshares, hslices, hcov, hserve, hrem⟩ := skipsWhole_eq_false.mp hskip
        have hw' : Within cards (Function.update budgets i { budgets i with whole := true }) :=
          hw.update ⟨.inr ⟨rfl, hshares, hslices, hrem⟩, .inl hshares, .inl hslices⟩
        simp only [hskip, Bool.false_eq_true, if_false] at h
        split at h
        · rename_i hlast
          obtain ⟨rfl, -⟩ := Prod.mk.inj h
          refine ⟨hw', [i], hlast, by simpa using ⟨hcov, hserve⟩, fun j => ?_⟩
          rw [load_takeWhole budgets hwhole]
          rcases eq_or_ne i j with rfl | hne
          · simp [Grant.load]
          · simp only [Grant.load, if_neg (Ne.symm hne), count_singleton, beq_iff_eq, hne]
            rfl
        · obtain ⟨hw'', js, hlen, hcovs, hload⟩ := takeWhole_sound hw' h
          refine ⟨hw'', i :: js, by simp only [length_cons]; omega,
            forall_mem_cons.mpr ⟨⟨hcov, hserve⟩, hcovs⟩, fun j => ?_⟩
          rw [hload j, load_takeWhole budgets hwhole, Load.add_assoc]
          congr 1
          rcases eq_or_ne i j with rfl | hne
          · ext <;> simp [Grant.load, Nat.add_comm]
          · ext <;> simp [Grant.load, hne, Ne.symm hne]
      · simp only [hskip, if_true] at h
        exact takeWhole_sound hw h

theorem fitExclusiveDemand_sound {κ : Type*} (host : Fin n → κ) (hd : d.family = .exclusive)
    (hw : Within cards budgets)
    (h : fitExclusiveDemand cards budgets d = (budgets', .ready, message)) :
    Granted cards host d budgets budgets' := by
  rcases htake : takeWhole cards d (finRange n) 0 budgets with ⟨b, state⟩
  simp only [fitExclusiveDemand, htake, Prod.mk.injEq] at h
  obtain ⟨rfl, rfl, -⟩ := h
  obtain ⟨hw', js, hlen, hcov, hload⟩ := takeWhole_sound hw htake
  -- a demand for no card is still given one: the grant keeps what was asked for
  refine ⟨hw', .whole (js.take d.cards), ⟨hd, ?_, fun i hi => ?_⟩, fun i => ?_⟩
  · rw [length_take]
    omega
  · obtain ⟨hc, hs⟩ := hcov i (mem_of_mem_take hi)
    exact ⟨hc, by rwa [hd] at hs⟩
  · rw [hload i]
    refine ⟨Nat.add_le_add_left ?_ _, Nat.le_refl _, Nat.le_refl _, Nat.le_refl _⟩
    exact (take_sublist _ _).count_le i

/-! ## Shared -/

/-- A card with a free share for the demand. -/
theorem of_freeSharesOf_pos (h : 0 < freeSharesOf cards budgets d i) :
    (budgets i).whole = false ∧ (budgets i).slices = 0 ∧ (cards i).coveredBy d = true ∧
      (cards i).servesFamily .shared = true ∧
      ((budgets i).shares : ℤ) + 1 ≤ (cards i).freeShares := by
  rw [freeSharesOf] at h
  split at h
  · exact absurd h (lt_irrefl 0)
  · rename_i hno
    simp only [Bool.or_eq_true, decide_eq_true_eq, Bool.not_eq_true', not_or, not_lt,
      Bool.not_eq_true, Bool.not_eq_false, Nat.le_zero] at hno
    refine ⟨hno.1.1, hno.1.2, hno.2, ?_, by omega⟩
    by_contra hserve
    have hfree : (cards i).freeShares = 0 := by
      rw [CardLedger.freeShares, Bool.eq_false_of_not_eq_true hserve]
      rfl
    omega

/-- Cards one holder can be given: distinct, of one hostname, each with a free share. -/
structure HolderCards (cards : Fin n → CardLedger) (budgets : Budgets n) (d : FamilyDemand)
    (is : List (Fin n)) : Prop where
  nodup : is.Nodup
  host : ∀ i ∈ is, ∀ j ∈ is, (cards i).hostname = (cards j).hostname
  free : ∀ i ∈ is, 0 < freeSharesOf cards budgets d i

theorem holderCards_sharesOnHost (budgets : Budgets n) (d : FamilyDemand) (host : String) :
    HolderCards cards budgets d (sharesOnHost cards budgets d host) := by
  have hmem : ∀ i ∈ sharesOnHost cards budgets d host,
      0 < freeSharesOf cards budgets d i ∧ (cards i).hostname = host := fun i hi => by
    simpa using (mem_filter.mp hi).2
  exact ⟨(nodup_finRange n).filter _,
    fun i hi j hj => (hmem i hi).2.trans (hmem j hj).2.symm, fun i hi => (hmem i hi).1⟩

theorem holderCards_chosenCards (cards : Fin n → CardLedger) (budgets : Budgets n) (d : FamilyDemand) :
    HolderCards cards budgets d (chosenCards cards budgets d) := by
  refine foldlRecOn _ _ ⟨nodup_nil, by simp, by simp⟩ fun chosen h host _ => ?_
  rw [widerHost]
  split
  · exact holderCards_sharesOnHost budgets d host
  · exact h

theorem HolderCards.sublist_perm {is js : List (Fin n)} (h : HolderCards cards budgets d is)
    (hsub : ∀ j ∈ js, j ∈ is) (hnd : js.Nodup) :
    HolderCards cards budgets d js :=
  ⟨hnd, fun i hi j hj => h.host i (hsub i hi) j (hsub j hj), fun i hi => h.free i (hsub i hi)⟩

theorem load_giveShares (is : List (Fin n)) (budgets : Budgets n) (j : Fin n) :
    (giveShares budgets is j).load = (budgets j).load + { shares := is.count j } := by
  induction is generalizing budgets with
  | nil => rfl
  | cons i is ih =>
    rw [giveShares, foldl_cons, ← giveShares, ih]
    rcases eq_or_ne i j with rfl | hne
    · rw [Function.update_self]
      ext <;> simp [CardBudget.load, Nat.add_assoc, Nat.add_comm 1]
    · rw [Function.update_of_ne (Ne.symm hne)]
      ext <;> simp [hne]

/-- The cards of a holder hold its shares. -/
theorem Within.giveShares (hw : Within cards budgets) {is : List (Fin n)}
    (h : HolderCards cards budgets d is) :
    Within cards (giveShares budgets is) := by
  intro j
  rw [load_giveShares]
  by_cases hj : j ∈ is
  · obtain ⟨hwhole, hslices, -, -, hshares⟩ := of_freeSharesOf_pos (h.free j hj)
    rw [count_eq_one_of_mem h.nodup hj]
    refine ⟨.inl ?_, .inr ⟨?_, hslices⟩, .inl hslices⟩
    · simp [CardBudget.load, hwhole]
    · simp only [Load.shares_add, CardBudget.load]
      push_cast
      exact hshares
  · rw [count_eq_zero_of_not_mem hj]
    exact hw j

/-- One holder placed. -/
theorem placeHolder_sound {need : ℕ} (hw : Within cards budgets)
    (h : placeHolder cards d need budgets = some budgets') :
    Within cards budgets' ∧ ∃ is : List (Fin n), is.length = need ∧
      HolderCards cards budgets d is ∧
      ∀ i, (budgets' i).load = (budgets i).load + { shares := is.count i } := by
  rw [placeHolder] at h
  split at h
  · cases h
  · rename_i hlen
    obtain rfl := Option.some.inj h
    have hperm := perm_insertionSort (fun a b =>
      freeSharesOf cards budgets d b ≤ freeSharesOf cards budgets d a) (chosenCards cards budgets d)
    have hcards := holderCards_chosenCards cards budgets d
    have hholder := hcards.sublist_perm
      (fun j hj => hperm.mem_iff.mp (mem_of_mem_take hj))
      ((hperm.nodup_iff.mpr hcards.nodup).sublist (take_sublist need _))
    refine ⟨hw.giveShares hholder, _, ?_, hholder, load_giveShares _ budgets⟩
    rw [length_take, hperm.length_eq]
    exact Nat.min_eq_left (not_lt.mp hlen)

/-- So many holders of one need placed. -/
theorem placeHolders_sound {need : ℕ} :
    ∀ {k : ℕ} {budgets budgets' : Budgets n}, Within cards budgets →
      placeHolders cards d need k budgets = (budgets', .ready) →
      Within cards budgets' ∧ ∃ holders : List (List (Fin n)),
        holders.map List.length = List.replicate k need ∧
        (∀ h ∈ holders, ∃ b, HolderCards cards b d h) ∧
        ∀ i, (budgets' i).load = (budgets i).load + (Grant.shares holders).load d i
  | 0, budgets, budgets', hw, h => by
      obtain ⟨rfl, -⟩ := Prod.mk.inj h
      exact ⟨hw, [], rfl, by simp, fun i => (Load.add_zero _).symm⟩
  | k + 1, budgets, budgets', hw, h => by
      rw [placeHolders] at h
      rcases hplace : placeHolder cards d need budgets with _ | b
      · simp [hplace] at h
      · simp only [hplace] at h
        obtain ⟨hw', is, hlen, hholder, hload⟩ := placeHolder_sound hw hplace
        obtain ⟨hw'', holders, hlens, hholders, hloads⟩ := placeHolders_sound hw' h
        refine ⟨hw'', is :: holders, by simp [hlen, hlens, replicate_succ],
          forall_mem_cons.mpr ⟨⟨budgets, hholder⟩, hholders⟩, fun i => ?_⟩
        rw [hloads i, hload i, Load.add_assoc]
        congr 1
        ext <;> simp [Grant.load]

/-- Every holder placed, need by need. -/
theorem placeNeeds_sound :
    ∀ {needs : List SharedNeed} {budgets budgets' : Budgets n}, Within cards budgets →
      placeNeeds cards d needs budgets = (budgets', .ready) →
      Within cards budgets' ∧ ∃ holders : List (List (Fin n)),
        holders.map List.length
          = needs.flatMap (fun need => List.replicate need.containers need.cards) ∧
        (∀ h ∈ holders, ∃ b, HolderCards cards b d h) ∧
        ∀ i, (budgets' i).load = (budgets i).load + (Grant.shares holders).load d i
  | [], budgets, budgets', hw, h => by
      obtain ⟨rfl, -⟩ := Prod.mk.inj h
      exact ⟨hw, [], rfl, by simp, fun i => (Load.add_zero _).symm⟩
  | need :: needs, budgets, budgets', hw, h => by
      rw [placeNeeds] at h
      rcases hplace : placeHolders cards d need.cards need.containers budgets with ⟨b, _ | _⟩
      · simp only [hplace] at h
        obtain ⟨hw', hs, hlens, hholders, hload⟩ := placeHolders_sound hw hplace
        obtain ⟨hw'', hs', hlens', hholders', hload'⟩ := placeNeeds_sound hw' h
        refine ⟨hw'', hs ++ hs', by simp [hlens, hlens'],
          forall_mem_append.mpr ⟨hholders, hholders'⟩, fun i => ?_⟩
        rw [hload' i, hload i, Load.add_assoc]
        congr 1
        ext <;> simp [Grant.load]
      · simp [hplace] at h

/-- The hostname tells hosts apart among the cards one holder may be given together. -/
def Separates {κ : Type*} (cards : Fin n → CardLedger) (host : Fin n → κ) : Prop :=
  ∀ i j, (cards i).hostname = (cards j).hostname → 0 < (cards i).freeShares →
    0 < (cards j).freeShares → ∀ flavor ∈ (cards i).flavors, flavor ∈ (cards j).flavors →
    host i = host j

theorem separates_hostname : Separates cards fun i => (cards i).hostname :=
  fun _ _ h _ _ _ _ _ => h

theorem CardLedger.flavor_mem_of_coveredBy (h : c.coveredBy d = true) : d.flavor ∈ c.flavors := by
  simp only [CardLedger.coveredBy, Bool.and_eq_true, decide_eq_true_eq] at h
  exact h.1

theorem fitSharedDemand_sound {κ : Type*} {host : Fin n → κ} (hsep : Separates cards host)
    (hd : d.family = .shared) (hw : Within cards budgets)
    (h : fitSharedDemand cards budgets d = (budgets', .ready, message)) :
    Granted cards host d budgets budgets' := by
  rcases hplace : placeNeeds cards d d.sharedNeeds budgets with ⟨b, state⟩
  simp only [fitSharedDemand, hplace, Prod.mk.injEq] at h
  obtain ⟨rfl, rfl, -⟩ := h
  obtain ⟨hw', holders, hlens, hholders, hload⟩ := placeNeeds_sound hw hplace
  refine ⟨hw', .shares holders, ⟨hd, hlens, fun is his => ?_⟩, fun i => hload i ▸ Load.le_refl _⟩
  obtain ⟨b', hholder⟩ := hholders is his
  refine ⟨hholder.nodup, fun i hi j hj => ?_, fun i hi => ?_⟩
  · obtain ⟨-, -, hcovi, -, hsi⟩ := of_freeSharesOf_pos (hholder.free i hi)
    obtain ⟨-, -, hcovj, -, hsj⟩ := of_freeSharesOf_pos (hholder.free j hj)
    exact hsep i j (hholder.host i hi j hj) (by omega) (by omega) d.flavor
      (CardLedger.flavor_mem_of_coveredBy hcovi) (CardLedger.flavor_mem_of_coveredBy hcovj)
  · obtain ⟨-, -, hcov, hserve, -⟩ := of_freeSharesOf_pos (hholder.free i hi)
    exact ⟨hcov, hserve⟩

/-! ## A list of demands -/

/-- Each fitter of a scalar family leaves a grant behind. -/
theorem fitDemand_sound {κ : Type*} {host : Fin n → κ} (hsep : Separates cards host)
    (hd : d.family ≠ .partitioned) (hw : Within cards budgets)
    (h : fitDemand cards budgets d = (budgets', .ready, message)) :
    Granted cards host d budgets budgets' := by
  rw [fitDemand] at h
  rcases hfam : d.family with _ | _ | _ | _ <;> simp only [hfam] at h
  · exact fitExclusiveDemand_sound _ hfam hw h
  · exact absurd hfam hd
  · exact fitSharedDemand_sound hsep hfam hw h
  · exact fitSlicedDemand_sound _ hfam hw h

/-- **A list of demands that all fit is placed**, on top of what was given before. -/
theorem fitDemands_sound {κ : Type*} {host : Fin n → κ} (hsep : Separates cards host)
    {clause : String} :
    ∀ {ds : List FamilyDemand} {budgets : Budgets n} {message : String},
      (∀ d ∈ ds, d.family ≠ .partitioned) → Within cards budgets →
      (fitDemands cards clause ds budgets message).1 = .ready →
      ∃ gs : List (Grant n), List.Forall₂ (Serves cards host) ds gs ∧
        ∀ i, (cards i).Holds ((budgets i).load + totalLoad ds gs i)
  | [], _, _, _, hw, _ => ⟨[], .nil, hw⟩
  | d :: ds, budgets, message, hfam, hw, h => by
      rw [fitDemands] at h
      rcases hfit : fitDemand cards budgets d with ⟨b, _ | _, m⟩
      · simp only [hfit] at h
        obtain ⟨hw', g, hserve, hload⟩ := fitDemand_sound hsep (hfam d (.head _)) hw
          hfit
        obtain ⟨gs, hgs, hhold⟩ :=
          fitDemands_sound hsep (fun e he => hfam e (.tail _ he)) hw' h
        refine ⟨g :: gs, .cons hserve hgs, fun i => (hhold i).mono ?_⟩
        rw [totalLoad, ← Load.add_assoc]
        exact Load.add_le_add_right (hload i) _
      · simp [hfit] at h

/-- **A Ready without inflight demands is backed by a placement.** -/
theorem placeable_of_ready {pool : List ScopedDevices} {demands : List FamilyDemand} {κ : Type*}
    {host : Fin (collectCards pool).length → κ} (hsep : Separates (collectCards pool).get host)
    (hfam : ∀ d ∈ demands, d.family ≠ .partitioned)
    (h : (nodeDevicesFeasibility pool [] demands).1 = .ready) :
    Placeable (collectCards pool).get host demands := by
  rw [nodeDevicesFeasibility] at h
  split at h
  · rename_i hnil
    subst hnil
    exact ⟨[], .nil, fun i => ((collectCards pool).get i).holds_zero⟩
  · obtain ⟨gs, hserve, hhold⟩ := fitDemands_sound hsep hfam within_empty h
    exact ⟨gs, hserve, fun i => Load.zero_add (totalLoad demands gs i) ▸ hhold i⟩

end GpuStack
