import Mathlib

/-!
# Lib/Assoc — association lists read through a part of their keys

A Go map is an `AList`, and its meaning is its lookups.  `pull` reads the map under another name of its
keys, dropping those that have none; a map filled in a loop is known by its keys (`mem_foldl_insert`).

`byKey` is the index of a list by a key, the last element of a key winning.  Where the keys are distinct it
holds exactly the elements of the list (`lookup_byKey`), in whatever order they came
(`lookup_byKey_perm`).
-/

namespace Assoc

universe u v

variable {α γ : Type u} {β δ : Type v} [DecidableEq α] [DecidableEq γ]

/-- Read the map under the names `f` gives its keys. -/
def pull (f : α → Option γ) (h : β → δ) (m : AList fun _ : α => β) : AList fun _ : γ => δ :=
  (m.entries.filterMap fun e => (f e.1).map fun c => ⟨c, h e.2⟩).toAList

/-- Filling a map leaves the keys that were written, and those that were there. -/
theorem mem_foldl_insert {ι : Type*} (f : ι → α) (v : (AList fun _ : α => β) → ι → β) (l : List ι)
    (m : AList fun _ : α => β) (k : α) :
    k ∈ l.foldl (fun m x => m.insert (f x) (v m x)) m ↔ (∃ x ∈ l, f x = k) ∨ k ∈ m := by
  induction l generalizing m with
  | nil => simp
  | cons x l ih =>
    rw [List.foldl_cons, ih, AList.mem_insert, List.exists_mem_cons_iff, eq_comm (a := k), or_assoc,
      or_left_comm]

section Index

variable {ι : Type v} (key : ι → α)

/-- `for i := range l { m[key(i)] = i }`. -/
def byKey (l : List ι) : AList fun _ : α => ι := l.foldl (fun m i => m.insert (key i) i) ∅

variable {key}

variable {l : List ι} {k : α}

theorem mem_byKey : k ∈ byKey key l ↔ ∃ i ∈ l, key i = k :=
  (mem_foldl_insert key (fun _ i => i) l ∅ k).trans (or_iff_left (AList.notMem_empty _))

/-- What is indexed under a key is an element of that key. -/
theorem of_lookup_byKey {i : ι} (h : (byKey key l).lookup k = some i) :
    i ∈ l ∧ key i = k := by
  -- an entry of the map is one of the start or an element of the list
  have hfold : ∀ (l : List ι) (m : AList fun _ : α => ι),
      (l.foldl (fun m i => m.insert (key i) i) m).lookup k = some i →
        m.lookup k = some i ∨ i ∈ l ∧ key i = k := by
    intro l
    induction l with
    | nil => exact fun m h => .inl h
    | cons j l ih =>
      intro m h
      rcases ih _ h with h | h
      · by_cases hj : k = key j
        · subst hj
          rw [AList.lookup_insert] at h
          obtain rfl := Option.some.inj h
          exact .inr ⟨List.mem_cons_self, rfl⟩
        · rw [AList.lookup_insert_ne hj] at h
          exact .inl h
      · exact .inr ⟨.tail _ h.1, h.2⟩
  exact (hfold l ∅ h).resolve_left fun h => by cases h

/-- **Where the keys are distinct, the index holds the elements.** -/
theorem lookup_byKey (hl : (l.map key).Nodup) {i : ι} :
    (byKey key l).lookup k = some i ↔ i ∈ l ∧ key i = k := by
  refine ⟨of_lookup_byKey, fun ⟨hi, hk⟩ => ?_⟩
  obtain ⟨j, hj⟩ := Option.isSome_iff_exists.mp (AList.lookup_isSome.mpr (mem_byKey.mpr ⟨i, hi, hk⟩))
  obtain ⟨hjl, hjk⟩ := of_lookup_byKey hj
  rwa [List.inj_on_of_nodup_map hl hi hjl (hk.trans hjk.symm)]

theorem lookup_byKey_perm {l' : List ι} (hl : (l.map key).Nodup) (hperm : l.Perm l') (k : α) :
    (byKey key l).lookup k = (byKey key l').lookup k :=
  Option.ext fun i => by
    rw [lookup_byKey hl, lookup_byKey ((hperm.map key).nodup_iff.mp hl), hperm.mem_iff]

end Index

end Assoc
