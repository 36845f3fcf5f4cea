import Mathlib

/-!
# Lib/Probing — open addressing with tombstones

A table of cells, and for every key the walk over the cells it may lie in.  A record goes to the first cell
of the walk that holds none; a key is looked for along the walk up to the first cell that was never used,
and the cell it is taken out of is left `dead`, never `empty` again, so that no walk that passed it is cut
short.

`Represents` is what the cells say about the map they stand for: every live cell is a record of the map,
a key has one cell, and the walk to a recorded key meets no empty cell.  Recording a new key and taking one
keep it (`Represents.record`, `Represents.take`), and there is a cell to record into as long as the map
has fewer keys than there are cells (`Represents.exists_free`).  The walks are arbitrary lists of cells.
-/

namespace Probing

universe u v w

/-- A cell of the table. -/
inductive Cell (κ : Type u) (ν : Type v) where
  | empty
  | dead
  | live (key : κ) (value : ν)
deriving DecidableEq, Repr

variable {κ : Type u} {ν : Type v} {ι : Type w} [DecidableEq ι]

/-- Record a key in the first cell of a walk that holds no record. -/
def recordFrom (k : κ) (v : ν) : List ι → (ι → Cell κ ν) → Option (ι → Cell κ ν)
  | [], _ => none
  | i :: walk, t =>
    match t i with
    | .live _ _ => recordFrom k v walk t
    | _ => some (Function.update t i (.live k v))

/-- Take a key out, looking for it up to the first cell that was never used. -/
def takeFrom [DecidableEq κ] (k : κ) : List ι → (ι → Cell κ ν) → Option (ν × (ι → Cell κ ν))
  | [], _ => none
  | i :: walk, t =>
    match t i with
    | .empty => none
    | .dead => takeFrom k walk t
    | .live k' v => if k' = k then some (v, Function.update t i .dead) else takeFrom k walk t

variable {k : κ} {v : ν} {t t' : ι → Cell κ ν} {walk : List ι}

/-- What a record does: it passes live cells only, and fills the first that is not. -/
theorem of_recordFrom (h : recordFrom k v walk t = some t') :
    ∃ pre i post, walk = pre ++ i :: post ∧ (∀ j ∈ pre, ∃ k' v', t j = .live k' v') ∧
      (∀ k' v', t i ≠ .live k' v') ∧ t' = Function.update t i (.live k v) := by
  induction walk with
  | nil => cases h
  | cons i walk ih =>
    rw [recordFrom] at h
    split at h
    next k' v' hi =>
      obtain ⟨pre, j, post, rfl, hpre, hj, rfl⟩ := ih h
      exact ⟨i :: pre, j, post, rfl, List.forall_mem_cons.mpr ⟨⟨k', v', hi⟩, hpre⟩, hj, rfl⟩
    next hfree =>
      refine ⟨[], i, walk, rfl, by simp, hfree, (Option.some.inj h).symm⟩

/-- A walk that meets a cell without a record ends in one. -/
theorem isSome_recordFrom {i : ι} (hi : i ∈ walk) (hfree : ∀ k' v', t i ≠ .live k' v') :
    (recordFrom k v walk t).isSome := by
  induction walk with
  | nil => cases hi
  | cons j walk ih =>
    rw [recordFrom]
    split
    next k' v' hj =>
      rcases List.mem_cons.mp hi with rfl | hi
      · exact absurd hj (hfree k' v')
      · exact ih hi
    next => rfl

variable [DecidableEq κ]

/-- A key is taken from its first cell, if the walk to it meets no empty cell. -/
theorem takeFrom_append_cons {pre post : List ι} {i : ι}
    (hpre : ∀ j ∈ pre, t j ≠ .empty ∧ ∀ v', t j ≠ .live k v') (hi : t i = .live k v) :
    takeFrom k (pre ++ i :: post) t = some (v, Function.update t i .dead) := by
  induction pre with
  | nil => simp [takeFrom, hi]
  | cons j pre ih =>
    obtain ⟨⟨hempty, hother⟩, hpre⟩ := List.forall_mem_cons.mp hpre
    rw [List.cons_append, takeFrom]
    split
    next hj => exact absurd hj hempty
    next => exact ih hpre
    next k' v' hj =>
      have hne : k' ≠ k := by
        rintro rfl
        exact hother v' hj
      rw [if_neg hne]
      exact ih hpre

theorem takeFrom_eq_none (h : ∀ i ∈ walk, ∀ v', t i ≠ .live k v') : takeFrom k walk t = none := by
  induction walk with
  | nil => rfl
  | cons i walk ih =>
    obtain ⟨hi, hwalk⟩ := List.forall_mem_cons.mp h
    rw [takeFrom]
    split
    next => rfl
    next => exact ih hwalk
    next k' v' hlive =>
      have hne : k' ≠ k := by
        rintro rfl
        exact hi v' hlive
      rw [if_neg hne]
      exact ih hwalk

/-! ### The map a table stands for -/

variable (walks : κ → List ι)

/-- **The probe-chain invariant.** -/
structure Represents (t : ι → Cell κ ν) (m : AList fun _ : κ => ν) : Prop where
  sound : ∀ {i k v}, t i = .live k v → m.lookup k = some v
  unique : ∀ {i j k v v'}, t i = .live k v → t j = .live k v' → i = j
  reach : ∀ {k v}, m.lookup k = some v →
    ∃ pre i post, walks k = pre ++ i :: post ∧ (∀ j ∈ pre, t j ≠ .empty) ∧ t i = .live k v

variable {walks} {m : AList fun _ : κ => ν}

omit [DecidableEq ι] in
theorem represents_empty : Represents walks (fun _ => .empty) (∅ : AList fun _ : κ => ν) where
  sound h := by cases h
  unique h := by cases h
  reach h := by cases h

namespace Represents

/-- A record of another key is reached past a cell that is used. -/
theorem reach_update (h : Represents walks t m) {i : ι} {cell : Cell κ ν} (hcell : cell ≠ .empty)
    (hi : ∀ {k' v'}, t i = .live k' v' → k' = k) {k' : κ} {v' : ν} (hne : k' ≠ k)
    (hk' : m.lookup k' = some v') : ∃ pre j post, walks k' = pre ++ j :: post ∧
      (∀ j ∈ pre, Function.update t i cell j ≠ .empty) ∧ Function.update t i cell j = .live k' v' := by
  obtain ⟨pre, j, post, hwalk, hpre, hj⟩ := h.reach hk'
  refine ⟨pre, j, post, hwalk, fun j' hj' => ?_, ?_⟩
  · rcases eq_or_ne j' i with rfl | hji
    · rwa [Function.update_self]
    · rw [Function.update_of_ne hji]
      exact hpre j' hj'
  · rwa [Function.update_of_ne fun hji => hne (hi (hji ▸ hj))]

/-- **A new key is recorded** beside those there are. -/
theorem record (h : Represents walks t m) (hk : m.lookup k = none)
    (hrec : recordFrom k v (walks k) t = some t') : Represents walks t' (m.insert k v) := by
  obtain ⟨pre, i, post, hwalk, hpre, hi, rfl⟩ := of_recordFrom hrec
  -- the key is in no cell yet, so a cell of another key is an old one
  have hnew : ∀ {j v'}, t j ≠ .live k v' := fun hj => by
    rw [h.sound hj] at hk
    cases hk
  have hold : ∀ {j k' v'}, t j = .live k' v' → j ≠ i := by
    rintro j k' v' hj rfl
    exact hi k' v' hj
  have hcell : ∀ {j k' v'}, Function.update t i (.live k v) j = .live k' v' →
      (j = i ∧ k' = k ∧ v' = v) ∨ (j ≠ i ∧ k' ≠ k ∧ t j = .live k' v') := by
    intro j k' v' hj
    rcases eq_or_ne j i with rfl | hji
    · rw [Function.update_self, Cell.live.injEq] at hj
      exact .inl ⟨rfl, hj.1.symm, hj.2.symm⟩
    · rw [Function.update_of_ne hji] at hj
      exact .inr ⟨hji, fun hkk => hnew (hkk ▸ hj), hj⟩
  refine ⟨fun {j k' v'} hj => ?_, fun {j j' k' v₁ v₂} hj hj' => ?_, fun {k' v'} hk' => ?_⟩
  · obtain ⟨-, rfl, rfl⟩ | ⟨-, hne, hj⟩ := hcell hj
    · exact AList.lookup_insert m
    · rw [AList.lookup_insert_ne hne]
      exact h.sound hj
  · obtain ⟨rfl, rfl, -⟩ | ⟨-, hne, hj⟩ := hcell hj <;> obtain ⟨rfl, hkk, -⟩ | ⟨-, hne', hj'⟩ := hcell hj'
    · rfl
    · exact absurd rfl hne'
    · exact absurd hkk hne
    · exact h.unique hj hj'
  · rcases eq_or_ne k' k with rfl | hne
    · rw [AList.lookup_insert] at hk'
      obtain rfl := Option.some.inj hk'
      refine ⟨pre, i, post, hwalk, fun j hj hempty => ?_, Function.update_self ..⟩
      obtain ⟨k', v', hlive⟩ := hpre j hj
      rw [Function.update_of_ne (hold hlive), hlive] at hempty
      cases hempty
    · rw [AList.lookup_insert_ne hne] at hk'
      exact h.reach_update (by simp) (fun hlive => absurd hlive (hi _ _)) hne hk'

/-- **A recorded key is taken with the value recorded for it**, and the others stay. -/
theorem take (h : Represents walks t m) (hk : m.lookup k = some v) :
    ∃ t', takeFrom k (walks k) t = some (v, t') ∧ Represents walks t' (m.erase k) := by
  obtain ⟨pre, i, post, hwalk, hpre, hi⟩ := h.reach hk
  -- a first cell of the key on its walk: the cell of the key is the only one
  have hfirst : ∃ pre post, walks k = pre ++ i :: post ∧ (∀ j ∈ pre, t j ≠ .empty) ∧ i ∉ pre := by
    by_cases hmem : i ∈ pre
    · obtain ⟨pre₁, pre₂, rfl, hnot⟩ := List.eq_append_cons_of_mem hmem
      refine ⟨pre₁, pre₂ ++ i :: post, by simp [hwalk], fun j hj => hpre j (by simp [hj]), hnot⟩
    · exact ⟨pre, post, hwalk, hpre, hmem⟩
  obtain ⟨pre, post, hwalk, hpre, hnot⟩ := hfirst
  refine ⟨Function.update t i .dead, ?_, ?_⟩
  · rw [hwalk]
    refine takeFrom_append_cons (fun j hj => ⟨hpre j hj, fun v' hlive => ?_⟩) hi
    exact hnot (h.unique hi hlive ▸ hj)
  · have hcell : ∀ {j k' v'}, Function.update t i .dead j = .live k' v' →
        k' ≠ k ∧ t j = .live k' v' := by
      intro j k' v' hj
      rcases eq_or_ne j i with rfl | hji
      · rw [Function.update_self] at hj
        cases hj
      · rw [Function.update_of_ne hji] at hj
        exact ⟨fun hkk => hji (h.unique (hkk ▸ hj) hi), hj⟩
    refine ⟨fun {j k' v'} hj => ?_, fun hj hj' => h.unique (hcell hj).2 (hcell hj').2,
      fun {k' v'} hk' => ?_⟩
    · rw [AList.lookup_erase_ne (hcell hj).1]
      exact h.sound (hcell hj).2
    · have hne : k' ≠ k := by
        rintro rfl
        rw [AList.lookup_erase] at hk'
        cases hk'
      rw [AList.lookup_erase_ne hne] at hk'
      exact h.reach_update (by simp) (fun hlive => (Cell.live.inj (hi.symm.trans hlive)).1.symm) hne hk'

/-- **A key that is not recorded is not found.** -/
theorem take_of_none (h : Represents walks t m) (hk : m.lookup k = none) :
    takeFrom k (walks k) t = none :=
  takeFrom_eq_none fun i _ v hi => by
    rw [h.sound hi] at hk
    cases hk

omit [DecidableEq ι] in
/-- A table that stands for fewer keys than it has cells has a cell without a record. -/
theorem exists_free [Fintype ι] (h : Represents walks t m)
    (hm : m.entries.length < Fintype.card ι) : ∃ i, ∀ k v, t i ≠ .live k v := by
  by_contra hfull
  push Not at hfull
  choose key value hlive using hfull
  have hinj : Function.Injective key := fun i j hij => h.unique (hlive i) (hij ▸ hlive j)
  have hsub : Finset.univ.image key ⊆ m.keys.toFinset := fun k hk => by
    obtain ⟨i, -, rfl⟩ := Finset.mem_image.mp hk
    rw [List.mem_toFinset, ← AList.mem_keys, ← AList.lookup_isSome, h.sound (hlive i)]
    rfl
  have hcard := Finset.card_le_card hsub
  rw [Finset.card_image_of_injective _ hinj, Finset.card_univ] at hcard
  have hkeys : m.keys.toFinset.card ≤ m.entries.length :=
    (List.toFinset_card_le _).trans_eq (List.length_map ..)
  omega

end Represents

end Probing
