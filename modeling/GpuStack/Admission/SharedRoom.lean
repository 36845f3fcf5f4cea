import GpuStack.Admission.Nodes
import GpuStack.Lib.Rounds
import GpuStack.Lib.Select

/-!
# Admission/SharedRoom — holders of one size on one host

On one host every card with a free share is a candidate, and a holder is given the cards with most of
them.  That is a round of `Lib/Rounds`: the shares left after it are `Rounds.take` of those before
(`placeHolder_cases`), so the fit places the holders exactly if they can be placed at all.
-/

namespace GpuStack

open List

variable {n : ℕ} {cards : Fin n → CardLedger} {budgets : Budgets n} {d : FamilyDemand}

/-- The free shares of the cards. -/
def sharesLeft (cards : Fin n → CardLedger) (budgets : Budgets n) (d : FamilyDemand) (i : Fin n) : ℕ :=
  (freeSharesOf cards budgets d i).toNat

theorem sharesLeft_pos {i : Fin n} :
    0 < sharesLeft cards budgets d i ↔ 0 < freeSharesOf cards budgets d i := Int.lt_toNat

/-! ### Giving shares -/

/-- The chosen cards, those with most free shares first. -/
def ranked (cards : Fin n → CardLedger) (budgets : Budgets n) (d : FamilyDemand) : List (Fin n) :=
  (chosenCards cards budgets d).insertionSort fun a b =>
    freeSharesOf cards budgets d b ≤ freeSharesOf cards budgets d a

theorem pairwise_ranked (cards : Fin n → CardLedger) (budgets : Budgets n) (d : FamilyDemand) :
    (ranked cards budgets d).Pairwise fun a b =>
    freeSharesOf cards budgets d b ≤ freeSharesOf cards budgets d a := by
  let key : Fin n → ℤᵒᵈ := fun i => OrderDual.toDual (freeSharesOf cards budgets d i)
  exact Select.pairwise_sort (fun a b => (Iff.rfl : _ ↔ key a ≤ key b)) _

theorem giveShares_apply (is : List (Fin n)) (budgets : Budgets n) (j : Fin n) :
    giveShares budgets is j = { budgets j with shares := (budgets j).shares + is.count j } := by
  induction is generalizing budgets with
  | nil => rfl
  | cons i is ih =>
    rw [giveShares, foldl_cons, ← giveShares, ih]
    rcases eq_or_ne i j with rfl | hne
    · simp [Nat.add_assoc, Nat.add_comm 1]
    · simp [hne, Ne.symm hne]

/-- A share of each of some cards that have one. -/
theorem sharesLeft_giveShares {is : List (Fin n)} (hnd : is.Nodup)
    (hpos : ∀ i ∈ is, 0 < freeSharesOf cards budgets d i) :
    sharesLeft cards (giveShares budgets is) d =
      Rounds.take (sharesLeft cards budgets d) is.toFinset := by
  funext i
  rw [Rounds.take, sharesLeft, sharesLeft, freeSharesOf, giveShares_apply]
  by_cases hi : i ∈ is
  · obtain ⟨hwhole, hslices, hcov, -⟩ := of_freeSharesOf_pos (hpos i hi)
    rw [if_pos (mem_toFinset.mpr hi), count_eq_one_of_mem hnd hi, freeSharesOf]
    simp only [hwhole, hslices, hcov, lt_irrefl, decide_false, Bool.or_self, Bool.not_true,
      Bool.false_eq_true, if_false]
    push_cast
    omega
  · rw [if_neg fun h => hi (mem_toFinset.mp h), count_eq_zero_of_not_mem hi, freeSharesOf]
    rfl

theorem placeHolders_add (c k m : ℕ) (budgets : Budgets n) :
    placeHolders cards d c (k + m) budgets =
      match placeHolders cards d c k budgets with
      | (budgets', .retry) => (budgets', .retry)
      | (budgets', .ready) => placeHolders cards d c m budgets' := by
  induction k generalizing budgets with
  | zero => rw [Nat.zero_add, placeHolders]
  | succ k ih =>
    rw [Nat.succ_add, placeHolders, placeHolders]
    cases placeHolder cards d c budgets with
    | none => rfl
    | some budgets' => exact ih budgets'

/-- Needs of one size are one need. -/
theorem placeNeeds_eq_placeHolders {c : ℕ} {needs : List SharedNeed} (h : ∀ need ∈ needs, need.cards = c)
    (budgets : Budgets n) :
    placeNeeds cards d needs budgets =
      placeHolders cards d c (needs.map SharedNeed.containers).sum budgets := by
  induction needs generalizing budgets with
  | nil => rfl
  | cons need needs ih =>
    rw [forall_mem_cons] at h
    rw [map_cons, sum_cons, placeHolders_add, placeNeeds, h.1]
    rcases placeHolders cards d c need.containers budgets with ⟨budgets', _ | _⟩
    · exact ih h.2 budgets'
    · rfl

/-! ### On one host -/

section OneHost

variable (hhost : ∀ i j, (cards i).hostname = (cards j).hostname)
include hhost

/-- **On one host, every card with a free share is chosen.** -/
theorem mem_chosenCards_iff {i : Fin n} :
    i ∈ chosenCards cards budgets d ↔ 0 < freeSharesOf cards budgets d i := by
  have hholder := holderCards_chosenCards cards budgets d
  refine ⟨hholder.free i, fun hi => ?_⟩
  -- the chosen cards are distinct cards with a free share, and at least as many as there are
  have hsub : chosenCards cards budgets d ⊆ sharesOnHost cards budgets d (cards i).hostname :=
    fun j hj => mem_filter.mpr ⟨mem_finRange j, by simp [hholder.free j hj, hhost j i]⟩
  have hperm := (hholder.nodup.subperm hsub).perm_of_length_le (length_sharesOnHost_le ..)
  exact hperm.mem_iff.mpr (mem_filter.mpr ⟨mem_finRange i, by simpa using hi⟩)

/-- What a holder of `c` cards is given is distinct cards with a share, and no other card has more. -/
theorem top_ranked {c : ℕ} (hc : c ≤ (chosenCards cards budgets d).length) {s : Finset (Fin n)}
    (hs : ((ranked cards budgets d).take c).toFinset = s) :
    s.card = c ∧ (∀ i ∈ s, 0 < sharesLeft cards budgets d i) ∧
      ∀ i ∈ s, ∀ j, j ∉ s → sharesLeft cards budgets d j ≤ sharesLeft cards budgets d i := by
  subst hs
  have hperm : (ranked cards budgets d).Perm (chosenCards cards budgets d) :=
    perm_insertionSort _ _
  have hnd : (ranked cards budgets d).Nodup :=
    hperm.nodup_iff.mpr (holderCards_chosenCards cards budgets d).nodup
  refine ⟨?_, fun i hi => ?_, fun i hi j hj => ?_⟩
  · rw [toFinset_card_of_nodup (hnd.sublist (take_sublist _ _)), length_take,
      hperm.length_eq, min_eq_left hc]
  · rw [mem_toFinset] at hi
    exact sharesLeft_pos.mpr ((mem_chosenCards_iff hhost).mp (hperm.mem_iff.mp (mem_of_mem_take hi)))
  · rw [mem_toFinset] at hi hj
    refine Int.toNat_le_toNat ?_
    by_cases hmem : j ∈ ranked cards budgets d
    · -- It is further down the ranking.
      rw [← take_append_drop c (ranked cards budgets d), mem_append] at hmem
      have hsorted := pairwise_ranked cards budgets d
      rw [← take_append_drop c (ranked cards budgets d), pairwise_append] at hsorted
      exact hsorted.2.2 i hi j (hmem.resolve_left hj)
    · -- It has no free share.
      have hno : ¬ 0 < freeSharesOf cards budgets d j := fun h =>
        hmem (hperm.mem_iff.mpr ((mem_chosenCards_iff hhost).mpr h))
      have hi := (mem_chosenCards_iff hhost).mp (hperm.mem_iff.mp (mem_of_mem_take hi))
      omega

/-- **Placing a holder is a round.** -/
theorem placeHolder_cases (c : ℕ) (budgets : Budgets n) :
    ((Finset.univ.filter fun i => 0 < sharesLeft cards budgets d i).card < c ∧
        placeHolder cards d c budgets = none) ∨
      ∃ (budgets' : Budgets n) (s : Finset (Fin n)), placeHolder cards d c budgets = some budgets' ∧
        sharesLeft cards budgets' d = Rounds.take (sharesLeft cards budgets d) s ∧ s.card = c ∧
        (∀ i ∈ s, 0 < sharesLeft cards budgets d i) ∧
        ∀ i ∈ s, ∀ j, j ∉ s → sharesLeft cards budgets d j ≤ sharesLeft cards budgets d i := by
  have hlen : (chosenCards cards budgets d).length =
      (Finset.univ.filter fun i => 0 < sharesLeft cards budgets d i).card := by
    rw [← toFinset_card_of_nodup (holderCards_chosenCards cards budgets d).nodup]
    congr 1
    ext i
    simp [mem_chosenCards_iff hhost, sharesLeft_pos]
  by_cases hc : (chosenCards cards budgets d).length < c
  · exact .inl ⟨hlen ▸ hc, by rw [placeHolder, if_pos hc]⟩
  · obtain ⟨hcard, hpos, htop⟩ := top_ranked (d := d) hhost (not_lt.mp hc) rfl
    refine .inr ⟨giveShares budgets ((ranked cards budgets d).take c), _, ?_, ?_, hcard, hpos, htop⟩
    · rw [placeHolder, if_neg hc]
      rfl
    · have hnd : (ranked cards budgets d).Nodup :=
        (perm_insertionSort _ _).nodup_iff.mpr (holderCards_chosenCards cards budgets d).nodup
      refine sharesLeft_giveShares (hnd.sublist (take_sublist _ _)) fun i hi => ?_
      exact sharesLeft_pos.mp (hpos i (mem_toFinset.mpr hi))

/-- Holders that are placed are served. -/
theorem served_of_placeHolders {c m : ℕ} {budgets : Budgets n}
    (h : (placeHolders cards d c m budgets).2 = .ready) :
    Rounds.Served (sharesLeft cards budgets d) c m := by
  induction m generalizing budgets with
  | zero => exact ⟨Fin.elim0, fun r => r.elim0, fun i => by simp⟩
  | succ m ih =>
    rw [placeHolders] at h
    rcases placeHolder_cases (d := d) hhost c budgets with
      ⟨-, hnone⟩ | ⟨budgets', s, hsome, hleft, hcard, hpos, -⟩
    · rw [hnone] at h
      cases h
    · rw [hsome] at h
      exact Rounds.Served.succ hcard hpos (hleft ▸ ih h)

/-- Holders within the room are placed. -/
theorem placeHolders_of_le_room {c m : ℕ} {budgets : Budgets n}
    (h : m * c ≤ Rounds.room (sharesLeft cards budgets d) m) :
    (placeHolders cards d c m budgets).2 = .ready := by
  induction m generalizing budgets with
  | zero => rfl
  | succ m ih =>
    rw [placeHolders]
    rcases placeHolder_cases (d := d) hhost c budgets with
      ⟨hfew, -⟩ | ⟨budgets', s, hsome, hleft, hcard, hpos, htop⟩
    · exact absurd (Rounds.le_card_of_le_room h) (not_le.mpr hfew)
    · rw [hsome]
      exact ih (hleft ▸ Rounds.le_room_take hcard hpos htop h)

end OneHost

/-- **The shared fit is exact on one host**, for holders that each need the same number of distinct
cards. -/
theorem fitSharedDemand_exact (cards : Fin n → CardLedger) (budgets : Budgets n) (d : FamilyDemand)
    (c : ℕ) (hhost : ∀ i j, (cards i).hostname = (cards j).hostname)
    (hneeds : ∀ need ∈ d.sharedNeeds, need.cards = c) :
    (fitSharedDemand cards budgets d).2.1 = .ready ↔
      ∃ holders : Fin (d.sharedNeeds.map SharedNeed.containers).sum → Finset (Fin n),
        (∀ h, (holders h).card = c) ∧
        ∀ i, (Finset.univ.filter fun h => i ∈ holders h).card ≤
          (freeSharesOf cards budgets d i).toNat := by
  have hstate : (fitSharedDemand cards budgets d).2.1 =
      (placeHolders cards d c (d.sharedNeeds.map SharedNeed.containers).sum budgets).2 := by
    rw [← placeNeeds_eq_placeHolders hneeds]
    rfl
  rw [hstate]
  exact ⟨served_of_placeHolders hhost, fun h => placeHolders_of_le_room hhost (Rounds.Served.le_room h)⟩

/-- Two cards of one host with two free shares each. -/
def twoShared : Fin 2 → CardLedger := fun _ =>
  { manufacturer := "nvidia", flavors := ["f"], hostname := "h", capability := {}
    mode := .shared, remaining := 320000, remainingProfiles := [], allocatedSlices := 0 }

theorem fitSharedDemand_exact_pair :
    (fitSharedDemand twoShared (fun _ => {}) ⟨.shared, 4, 0, "", "f", [], [⟨2, 2⟩], ""⟩).2.1 = .ready :=
  (fitSharedDemand_exact twoShared (fun _ => {}) ⟨.shared, 4, 0, "", "f", [], [⟨2, 2⟩], ""⟩ 2
    (fun _ _ => rfl) (by simp)).mpr ⟨fun _ => Finset.univ, fun _ => by simp, by decide⟩

end GpuStack
