import Mathlib

/-!
# Lib/Select — the first minimum of a scan

A scan keeps the best element met so far and replaces it only by a strictly better one.  `firstMin`
is that loop over the elements that qualify: it finds nothing exactly when nothing qualifies
(`firstMin_eq_none`), and what it finds qualifies and is no worse than anything that does
(`firstMin_spec`).

When the elements of one kind come first in a list, cutting it to no fewer than they are keeps them all
(`mem_take_of_first`).

A list sorted by a key is sorted (`pairwise_sort`), and in one way only if no two elements share theirs
(`sort_eq_of_perm`).
-/

namespace Select

open List

universe u v

variable {α : Type u} {β : Type v} [LinearOrder β] (p : α → Prop) [DecidablePred p] (f : α → β)

/-- One element of the scan against the best so far. -/
def keepMin : Option α → α → Option α
  | none, a => if p a then some a else none
  | some b, a => if p a ∧ f a < f b then some a else some b

/-- The first minimum of `f` over the elements of a list that qualify. -/
def firstMin (l : List α) : Option α := l.foldl (keepMin p f) none

variable {p f}

theorem keepMin_eq_none : ∀ {best : Option α} {a : α},
    keepMin p f best a = none ↔ best = none ∧ ¬ p a
  | none, a => by simp [keepMin]
  | some b, a => by
      rw [keepMin]
      split <;> simp

/-- The best so far after one more element: it or an old one, and no worse than either. -/
theorem keepMin_spec : ∀ {best : Option α} {a c : α}, keepMin p f best a = some c →
    (c = a ∧ p a ∨ best = some c) ∧ (p a → f c ≤ f a) ∧ ∀ b, best = some b → f c ≤ f b
  | none, a, c, h => by
      rw [keepMin] at h
      split at h
      · rename_i hp
        obtain rfl := Option.some.inj h
        exact ⟨.inl ⟨rfl, hp⟩, fun _ => le_rfl, by simp⟩
      · cases h
  | some b, a, c, h => by
      rw [keepMin] at h
      split at h
      · rename_i hp
        obtain rfl := Option.some.inj h
        exact ⟨.inl ⟨rfl, hp.1⟩, fun _ => le_rfl, by simpa using hp.2.le⟩
      · rename_i hno
        obtain rfl := Option.some.inj h
        exact ⟨.inr rfl, fun hp => not_lt.mp fun hlt => hno ⟨hp, hlt⟩, by simp⟩

/-- **Nothing is found exactly when nothing qualifies.** -/
theorem firstMin_eq_none {l : List α} : firstMin p f l = none ↔ ∀ a ∈ l, ¬ p a := by
  suffices ∀ best, l.foldl (keepMin p f) best = none ↔ best = none ∧ ∀ a ∈ l, ¬ p a by
    simpa [firstMin] using this none
  induction l with
  | nil => simp
  | cons a l ih =>
    intro best
    rw [foldl_cons, ih, keepMin_eq_none]
    simp [and_assoc]

/-- **What is found** qualifies, and nothing that qualifies is smaller. -/
theorem firstMin_spec {l : List α} {c : α} (h : firstMin p f l = some c) :
    c ∈ l ∧ p c ∧ ∀ a ∈ l, p a → f c ≤ f a := by
  -- over the list still to scan: the result is the old best or a later element, no worse than all
  suffices ∀ (l : List α) (best : Option α) (c : α), l.foldl (keepMin p f) best = some c →
      (best = some c ∨ c ∈ l ∧ p c) ∧ (∀ b, best = some b → f c ≤ f b) ∧
        ∀ a ∈ l, p a → f c ≤ f a by
    obtain ⟨hc, -, hmin⟩ := this l none c h
    obtain ⟨hmem, hp⟩ := hc.resolve_left (by simp)
    exact ⟨hmem, hp, hmin⟩
  intro l
  induction l with
  | nil =>
    intro best c h
    exact ⟨.inl h, fun b hb => by rw [Option.some.inj (hb.symm.trans h)], by simp⟩
  | cons a l ih =>
    intro best c h
    obtain ⟨hc, hbest, hmin⟩ := ih _ c h
    rcases hkeep : keepMin p f best a with _ | b
    · obtain ⟨rfl, hpa⟩ := keepMin_eq_none.mp hkeep
      obtain ⟨hmem, hp⟩ := hc.resolve_left (by simp [hkeep])
      refine ⟨.inr ⟨.tail _ hmem, hp⟩, by simp, fun x hx hpx => ?_⟩
      rcases mem_cons.mp hx with rfl | hx
      · exact absurd hpx hpa
      · exact hmin x hx hpx
    · obtain ⟨hfrom, ha, hold⟩ := keepMin_spec hkeep
      have hcb : f c ≤ f b := hbest b hkeep
      refine ⟨?_, fun b' hb' => hcb.trans (hold b' hb'), fun x hx hpx => ?_⟩
      · rcases hc with hc | ⟨hmem, hp⟩
        · obtain rfl : b = c := Option.some.inj (hkeep.symm.trans hc)
          rcases hfrom with ⟨rfl, hpa⟩ | hb
          · exact .inr ⟨.head _, hpa⟩
          · exact .inl hb
        · exact .inr ⟨.tail _ hmem, hp⟩
      · rcases mem_cons.mp hx with rfl | hx
        · exact hcb.trans (ha hpx)
        · exact hmin x hx hpx

theorem mem_take_of_first {q : α → Prop} [DecidablePred q] {l : List α} {k : ℕ}
    (hl : l.Pairwise fun a b => q b → q a) (hk : l.countP q ≤ k) {a : α} (ha : a ∈ l) (hq : q a) :
    a ∈ l.take k := by
  induction l generalizing k with
  | nil => cases ha
  | cons b l ih =>
    rw [pairwise_cons] at hl
    have hb : q b := by
      rcases mem_cons.mp ha with rfl | ha
      · exact hq
      · exact hl.1 a ha hq
    rw [countP_cons_of_pos (by simpa using hb)] at hk
    obtain ⟨k, rfl⟩ : ∃ n, k = n + 1 := ⟨k - 1, by omega⟩
    rw [take_succ_cons]
    rcases mem_cons.mp ha with rfl | ha
    · exact .head _
    · exact .tail _ (ih hl.2 (by omega) ha)

section Sorting

variable {key : α → β} {r : α → α → Prop} [DecidableRel r]

theorem pairwise_sort (hr : ∀ a b, r a b ↔ key a ≤ key b) (l : List α) : (l.insertionSort r).Pairwise r := by
  have : Std.Total r := ⟨fun a b => by simpa only [hr] using le_total (key a) (key b)⟩
  have : IsTrans α r := ⟨fun a b c => by simpa only [hr] using le_trans⟩
  exact pairwise_insertionSort r l

/-- **Elements with keys of their own are sorted in one way only.** -/
theorem sort_eq_of_perm {l l' : List α} (hr : ∀ a b, r a b ↔ key a ≤ key b) (hinj : Set.InjOn key {a | a ∈ l})
    (hperm : l.Perm l') : l.insertionSort r = l'.insertionSort r := by
  refine List.Perm.eq_of_pairwise (fun a b ha hb hab hba => ?_) (pairwise_sort hr l) (pairwise_sort hr l')
    ((perm_insertionSort r l).trans (hperm.trans (perm_insertionSort r l').symm))
  refine hinj ((mem_insertionSort r).mp ha) (hperm.mem_iff.mpr ((mem_insertionSort r).mp hb)) ?_
  exact le_antisymm ((hr a b).mp hab) ((hr b a).mp hba)

end Sorting

end Select
