import Mathlib

/-!
# Lib/Rounds — rounds that each take so many distinct things

Of each thing there are a number of copies, and every round takes one copy of each of `c` distinct
things.  Rounds that can be served satisfy `m * c ≤ ∑ i, min (f i) m` (`Served.le_room`): no round
takes two copies of one thing, so of a thing at most `min (f i) m` copies are of use.

A round of the things with most copies left keeps this true of the rounds still to come
(`le_room_take`), so whoever serves them so is never stuck early.
-/

namespace Rounds

universe u

variable {ι : Type u} [DecidableEq ι] {f : ι → ℕ} {c m : ℕ} {s : Finset ι}

/-- `m` rounds of `c` distinct things each, within the copies there are. -/
def Served (f : ι → ℕ) (c m : ℕ) : Prop :=
  ∃ a : Fin m → Finset ι, (∀ r, (a r).card = c) ∧ ∀ i, (Finset.univ.filter fun r => i ∈ a r).card ≤ f i

/-- The copies of use in `m` rounds. -/
def room [Fintype ι] (f : ι → ℕ) (m : ℕ) : ℕ := ∑ i, min (f i) m

/-- What a round leaves. -/
def take (f : ι → ℕ) (s : Finset ι) : ι → ℕ := fun i => if i ∈ s then f i - 1 else f i

/-- **Rounds that are served are within the room.** -/
theorem Served.le_room [Fintype ι] (h : Served f c m) : m * c ≤ room f m := by
  obtain ⟨a, hcard, huse⟩ := h
  calc m * c = ∑ r : Fin m, (a r).card := by simp [hcard]
    _ = ∑ r : Fin m, ∑ i, if i ∈ a r then 1 else 0 := by
        refine Finset.sum_congr rfl fun r _ => ?_
        rw [Finset.sum_boole, Finset.filter_mem_eq_inter, Finset.univ_inter, Nat.cast_id]
    _ = ∑ i, (Finset.univ.filter fun r => i ∈ a r).card := by
        rw [Finset.sum_comm]
        refine Finset.sum_congr rfl fun i _ => ?_
        rw [Finset.sum_boole, Nat.cast_id]
    _ ≤ room f m := by
        refine Finset.sum_le_sum fun i _ => le_min (huse i) ?_
        simpa using Finset.card_filter_le Finset.univ fun r : Fin m => i ∈ a r

/-- One more round, of things that have a copy. -/
theorem Served.succ (hs : s.card = c) (hpos : ∀ i ∈ s, 0 < f i) (h : Served (take f s) c m) :
    Served f c (m + 1) := by
  obtain ⟨a, hcard, huse⟩ := h
  refine ⟨Fin.cons s a, ?_, fun i => ?_⟩
  · intro r
    refine Fin.cases ?_ (fun r => ?_) r
    · exact hs
    · exact hcard r
  · rw [Fin.card_filter_univ_succ]
    simp only [Fin.cons_zero, Fin.cons_succ]
    have := huse i
    unfold take at this
    split at this
    next hi =>
      have := hpos i hi
      rw [if_pos hi]
      omega
    next hi =>
      rw [if_neg hi]
      omega

variable [Fintype ι]

omit [DecidableEq ι] in
/-- Within the room, there are enough things for a round. -/
theorem le_card_of_le_room (h : (m + 1) * c ≤ room f (m + 1)) :
    c ≤ (Finset.univ.filter fun i => 0 < f i).card := by
  have hle : room f (m + 1) ≤ (Finset.univ.filter fun i => 0 < f i).card * (m + 1) := by
    calc room f (m + 1) ≤ ∑ i, if 0 < f i then m + 1 else 0 := by
          refine Finset.sum_le_sum fun i _ => ?_
          split <;> omega
      _ = (Finset.univ.filter fun i => 0 < f i).card * (m + 1) := by
          rw [← Finset.sum_filter, Finset.sum_const, smul_eq_mul]
  have : (m + 1) * c ≤ (m + 1) * (Finset.univ.filter fun i => 0 < f i).card := by
    rw [Nat.mul_comm (m + 1) (Finset.card _)]
    exact h.trans hle
  exact Nat.le_of_mul_le_mul_left this (Nat.succ_pos m)

/-- **A round of the things with most copies leaves room for the others.** -/
theorem le_room_take (hs : s.card = c) (hpos : ∀ i ∈ s, 0 < f i)
    (htop : ∀ i ∈ s, ∀ j, j ∉ s → f j ≤ f i) (h : (m + 1) * c ≤ room f (m + 1)) :
    m * c ≤ room (take f s) m := by
  by_cases hbig : ∃ j, j ∉ s ∧ m < f j
  · -- The round's own things have copies enough for all the rounds still to come.
    obtain ⟨j, hj, hlt⟩ := hbig
    calc m * c = ∑ i ∈ s, m := by rw [Finset.sum_const, hs, smul_eq_mul, Nat.mul_comm]
      _ ≤ ∑ i ∈ s, min (take f s i) m := by
          refine Finset.sum_le_sum fun i hi => le_min ?_ le_rfl
          have := htop i hi j hj
          rw [take, if_pos hi]
          omega
      _ ≤ room (take f s) m :=
          Finset.sum_le_sum_of_subset_of_nonneg (Finset.subset_univ s) fun _ _ _ => Nat.zero_le _
  · -- Nothing else is of use in all the rounds, so the round costs `c` copies of use.
    have hsum : room f (m + 1) = room (take f s) m + c := by
      have hone : ∀ i, min (f i) (m + 1) = min (take f s i) m + if i ∈ s then 1 else 0 := by
        intro i
        unfold take
        split
        next hi =>
          have := hpos i hi
          omega
        next hi =>
          have : ¬ m < f i := fun hlt => hbig ⟨i, hi, hlt⟩
          omega
      simp only [room, hone, Finset.sum_add_distrib, Finset.sum_boole, Finset.filter_mem_eq_inter,
        Finset.univ_inter, hs, Nat.cast_id]
    rw [hsum, Nat.add_mul, Nat.one_mul] at h
    omega

end Rounds
