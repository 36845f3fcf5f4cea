import Mathlib

/-!
# Hygon/Mask — compute-unit masks

A card's compute units are addressed by a mask of two 64-bit words.  `CuMask.units` is the set a mask
stands for; `packCUMask` picks the lowest free units of a card, and `units_packCUMask` says that what it
picks lies on the card and is free.
-/

namespace GpuStack.Hygon

open List

def cuWordBits : ℕ := 64

/-- A compute-unit mask: bit `c` is unit `c`, the first word the units below 64. -/
structure CuMask where
  lo : BitVec 64
  hi : BitVec 64
deriving DecidableEq, Repr

namespace CuMask

def empty : CuMask := ⟨0, 0⟩

def has (m : CuMask) (cu : ℕ) : Bool :=
  if cu < cuWordBits then (m.lo &&& (1#64 <<< cu)) != 0
  else (m.hi &&& (1#64 <<< (cu - cuWordBits))) != 0

def set (m : CuMask) (cu : ℕ) : CuMask :=
  if cu < cuWordBits then { m with lo := m.lo ||| (1#64 <<< cu) }
  else { m with hi := m.hi ||| (1#64 <<< (cu - cuWordBits)) }

def or (m o : CuMask) : CuMask := ⟨m.lo ||| o.lo, m.hi ||| o.hi⟩

/-- The number of bits set in a word. -/
def onesCount64 (w : BitVec 64) : ℕ := (List.range 64).countP w.getLsbD

def count (m : CuMask) : ℕ := onesCount64 m.lo + onesCount64 m.hi

/-- The compute units of a mask. -/
def units (m : CuMask) : Finset ℕ := (Finset.range (2 * cuWordBits)).filter fun cu => m.has cu = true

end CuMask

/-- The mask of every compute unit of a card. -/
def fullMask (cores : ℕ) : CuMask := (List.range cores).foldl CuMask.set .empty

/-- A compute percentage of a card as a number of units, rounded up. -/
def sliceCUCount (coresPct : ℤ) (cores : ℕ) : ℤ := min (-(-(coresPct * cores) / 100)) cores

/-- Why no mask could be packed. -/
inductive PackError
  | tooWide (cores : ℕ)
  | beyondCard (cores : ℕ)
  | insufficient (need : ℕ) (free : ℤ) (cores : ℕ)
deriving DecidableEq, Repr

/-- One round of the loop: take the unit if it is free and more are needed. -/
def packStep (used : CuMask) (cuCount : ℕ) (s : CuMask × ℕ) (cu : ℕ) : CuMask × ℕ :=
  if s.2 < cuCount ∧ used.has cu = false then (s.1.set cu, s.2 + 1) else s

/-- The lowest free compute units of a card. -/
def packCUMask (used : CuMask) (cuCount cores : ℕ) : Except PackError CuMask :=
  if 2 * cuWordBits < cores then .error (.tooWide cores)
  else if used.lo &&& ~~~(fullMask cores).lo ≠ 0 ∨ used.hi &&& ~~~(fullMask cores).hi ≠ 0 then
    .error (.beyondCard cores)
  else
    let s := (List.range cores).foldl (packStep used cuCount) (.empty, 0)
    if s.2 < cuCount then .error (.insufficient cuCount (cores - used.count) cores) else .ok s.1

/-! ### Masks as sets -/

namespace CuMask

variable {k cu : ℕ}

theorem and_bit_ne_zero {w : BitVec 64} (hk : k < 64) :
    ((w &&& (1#64 <<< k)) != 0) = w.getLsbD k := by
  rw [← BitVec.twoPow_eq, BitVec.and_twoPow]
  cases hbit : w.getLsbD k with
  | false => simp
  | true =>
    have hne : BitVec.twoPow 64 k ≠ 0#64 := by
      intro h
      have := congrArg (fun v => v.getLsbD k) h
      simp [hk] at this
    simpa using hne

theorem has_lo (m : CuMask) (h : cu < cuWordBits) : m.has cu = m.lo.getLsbD cu := by
  rw [has, if_pos h, and_bit_ne_zero h]

theorem has_hi (m : CuMask) (h : cuWordBits ≤ cu) (h' : cu < 2 * cuWordBits) :
    m.has cu = m.hi.getLsbD (cu - cuWordBits) := by
  rw [has, if_neg (by omega), and_bit_ne_zero (by simp only [cuWordBits] at *; omega)]

theorem mem_units {m : CuMask} : cu ∈ m.units ↔ cu < 2 * cuWordBits ∧ m.has cu = true := by
  simp [units]

theorem getLsbD_or_bit {w : BitVec 64} {j : ℕ} (hj : j < 64) :
    (w ||| (1#64 <<< k)).getLsbD j = (w.getLsbD j || decide (j = k)) := by
  rw [← BitVec.twoPow_eq, BitVec.getLsbD_or, BitVec.getLsbD_twoPow]
  by_cases h : j = k
  · subst h
    simp [hj]
  · simp [h, Ne.symm h]

theorem has_set (m : CuMask) (cu : ℕ) (hk : k < 2 * cuWordBits) :
    (m.set cu).has k = (m.has k || decide (k = cu)) := by
  by_cases hlow : k < cuWordBits
  · rw [has_lo _ hlow, has_lo _ hlow]
    by_cases h : cu < cuWordBits
    · rw [set, if_pos h]
      exact getLsbD_or_bit hlow
    · have hne : k ≠ cu := by omega
      rw [set, if_neg h]
      simp [hne]
  · push Not at hlow
    rw [has_hi _ hlow hk, has_hi _ hlow hk]
    by_cases h : cu < cuWordBits
    · have hne : k ≠ cu := by omega
      rw [set, if_pos h]
      simp [hne]
    · have heq : decide (k = cu) = decide (k - cuWordBits = cu - cuWordBits) := by
        rw [decide_eq_decide]
        omega
      rw [set, if_neg h, heq]
      exact getLsbD_or_bit (by simp only [cuWordBits] at *; omega)

theorem units_set (m : CuMask) (hcu : cu < 2 * cuWordBits) :
    (m.set cu).units = insert cu m.units := by
  ext k
  rw [Finset.mem_insert, mem_units, mem_units]
  constructor
  · rintro ⟨hk, hhas⟩
    rw [has_set m cu hk, Bool.or_eq_true, decide_eq_true_eq] at hhas
    exact hhas.symm.imp_right fun h => ⟨hk, h⟩
  · rintro (rfl | ⟨hk, hhas⟩)
    · exact ⟨hcu, by simp [has_set m _ hcu]⟩
    · exact ⟨hk, by simp [has_set m cu hk, hhas]⟩

theorem units_or (m o : CuMask) : (m.or o).units = m.units ∪ o.units := by
  ext k
  rw [Finset.mem_union, mem_units, mem_units, mem_units, ← and_or_left]
  refine and_congr_right fun hk => ?_
  by_cases hlow : k < cuWordBits
  · rw [has_lo _ hlow, has_lo _ hlow, has_lo _ hlow, or, BitVec.getLsbD_or, Bool.or_eq_true]
  · push Not at hlow
    rw [has_hi _ hlow hk, has_hi _ hlow hk, has_hi _ hlow hk, or, BitVec.getLsbD_or, Bool.or_eq_true]

theorem units_empty : units empty = ∅ := by decide

theorem countP_range (p : ℕ → Bool) (n : ℕ) :
    (List.range n).countP p = ∑ k ∈ Finset.range n, if p k = true then 1 else 0 := by
  induction n with
  | zero => rfl
  | succ n ih =>
    rw [range_succ, countP_append, ih, Finset.sum_range_succ, countP_singleton]

/-- The bits of a mask are its units. -/
theorem count_eq_card (m : CuMask) : m.count = m.units.card := by
  have hlo : onesCount64 m.lo = ∑ k ∈ Finset.range cuWordBits, if m.has k = true then 1 else 0 := by
    rw [onesCount64, countP_range]
    refine Finset.sum_congr rfl fun k hk => ?_
    rw [has_lo m (Finset.mem_range.mp hk)]
  have hhi : onesCount64 m.hi =
      ∑ k ∈ Finset.range cuWordBits, if m.has (cuWordBits + k) = true then 1 else 0 := by
    rw [onesCount64, countP_range]
    refine Finset.sum_congr rfl fun k hk => ?_
    have hk : k < cuWordBits := Finset.mem_range.mp hk
    rw [has_hi m (Nat.le_add_right _ _) (by omega), Nat.add_sub_cancel_left]
  rw [units, Finset.card_filter, two_mul, Finset.sum_range_add, count, hlo, hhi]

end CuMask

/-! ### What is packed -/

/-- What the loop has picked lies among the units it has seen and is free. -/
theorem units_foldl_packStep {used : CuMask} {cuCount : ℕ} {l : List ℕ}
    (hl : ∀ cu ∈ l, cu < 2 * cuWordBits) {s : CuMask × ℕ} {cu : ℕ}
    (h : cu ∈ (l.foldl (packStep used cuCount) s).1.units) :
    cu ∈ s.1.units ∨ cu ∈ l ∧ cu ∉ used.units := by
  induction l generalizing s with
  | nil => exact .inl h
  | cons k l ih =>
    rw [forall_mem_cons] at hl
    rcases ih hl.2 h with h | ⟨hmem, hfree⟩
    · unfold packStep at h
      split at h
      next hpick =>
        rw [CuMask.units_set _ hl.1, Finset.mem_insert] at h
        rcases h with rfl | h
        · refine .inr ⟨mem_cons_self, fun hused => ?_⟩
          rw [(CuMask.mem_units.mp hused).2] at hpick
          cases hpick.2
        · exact .inl h
      · exact .inl h
    · exact .inr ⟨.tail _ hmem, hfree⟩

/-- **What is packed lies on the card and is free.** -/
theorem units_packCUMask {used m : CuMask} {cuCount cores : ℕ}
    (h : packCUMask used cuCount cores = .ok m) :
    m.units ⊆ Finset.range cores ∧ Disjoint m.units used.units := by
  unfold packCUMask at h
  dsimp only at h
  split_ifs at h with hwide
  obtain rfl := Except.ok.inj h
  have hpick : ∀ cu ∈ ((range cores).foldl (packStep used cuCount) (.empty, 0)).1.units,
      cu ∈ range cores ∧ cu ∉ used.units := by
    intro cu hcu
    refine (units_foldl_packStep (fun k hk => ?_) hcu).resolve_left ?_
    · exact (mem_range.mp hk).trans_le (not_lt.mp hwide)
    · rw [CuMask.units_empty]
      exact Finset.notMem_empty cu
  refine ⟨fun cu hcu => ?_, Finset.disjoint_left.mpr fun cu hcu => (hpick cu hcu).2⟩
  exact Finset.mem_range.mpr (mem_range.mp (hpick cu hcu).1)

end GpuStack.Hygon
