import GpuStack.Device.Api

/-!
# Device/Rows — the row of a ledger an identity points to

The fold over a ledger keeps an index from an accelerator's identity to its row, filled in the order
of the inventory, so of two rows under one identity the last one is meant.  `DevicesStatus.row` reads
that row and `DevicesStatus.updateRow` rewrites it in place.

An update keeps every identity where it is (`shape`) and every row that no identity points to.  So
two ledgers reached from one seed by updates are equal as soon as they agree on every indexed row:
`Reworked.eq_of_row`.
-/

namespace GpuStack

open List

namespace DevicesStatus

/-- The identities of a ledger, group by group. -/
def shape (s : DevicesStatus) : List (String × List String) :=
  s.groups.map fun g => (g.id, g.accelerators.map (·.id))

/-- Every place of a shape, under the identity that stands there. -/
def positions (shape : List (String × List String)) : List (Resource × ℕ × ℕ) :=
  shape.zipIdx.flatMap fun g => g.1.2.zipIdx.map fun a => (⟨g.1.1, a.1⟩, g.2, a.2)

/-- The place an identity points to: the last one it stands at. -/
def index (s : DevicesStatus) (res : Resource) : Option (ℕ × ℕ) :=
  (((positions s.shape).filter fun p => p.1 = res).getLast?).map (·.2)

/-- The row at a place. -/
def rowAt (s : DevicesStatus) (at' : ℕ × ℕ) : Option AcceleratorAllocation :=
  (s.groups[at'.1]?).bind fun g => g.accelerators[at'.2]?

/-- Rewrite the row at a place. -/
def modifyAt (s : DevicesStatus) (at' : ℕ × ℕ)
    (f : AcceleratorAllocation → AcceleratorAllocation) : DevicesStatus :=
  ⟨s.groups.modify at'.1 fun g => { g with accelerators := g.accelerators.modify at'.2 f }⟩

/-- The row an identity points to. -/
def row (s : DevicesStatus) (res : Resource) : Option AcceleratorAllocation :=
  (s.index res).bind s.rowAt

/-- Rewrite the row an identity points to. -/
def updateRow (s : DevicesStatus) (res : Resource)
    (f : AcceleratorAllocation → AcceleratorAllocation) : DevicesStatus :=
  match s.index res with
  | none => s
  | some at' => s.modifyAt at' f

/-! ## Places and identities -/

variable {res : Resource} {s t : DevicesStatus} {at' : ℕ × ℕ}

theorem mem_positions {shape : List (String × List String)} {i j : ℕ} :
    (res, i, j) ∈ positions shape ↔
      ∃ ids, shape[i]? = some (res.group, ids) ∧ ids[j]? = some res.device := by
  simp only [positions, mem_flatMap, mem_map, Prod.exists, Prod.mk.injEq]
  constructor
  · rintro ⟨gid, ids, i', hg, aid, j', ha, rfl, rfl, rfl⟩
    exact ⟨ids, mem_zipIdx_iff_getElem?.mp hg, mem_zipIdx_iff_getElem?.mp ha⟩
  · rintro ⟨ids, hg, ha⟩
    exact ⟨res.group, ids, i, mem_zipIdx_iff_getElem?.mpr hg, res.device, j,
      mem_zipIdx_iff_getElem?.mpr ha, rfl, rfl, rfl⟩

theorem mem_positions_of_index (h : s.index res = some at') : (res, at') ∈ positions s.shape := by
  obtain ⟨p, hp, rfl⟩ := Option.map_eq_some_iff.mp h
  obtain ⟨hmem, hres⟩ := mem_filter.mp (mem_of_getLast? hp)
  obtain rfl : p.1 = res := of_decide_eq_true hres
  exact hmem

/-- No two identities point to one place. -/
theorem index_inj {res' : Resource} (h : s.index res = some at') (h' : s.index res' = some at') :
    res = res' := by
  obtain ⟨ids, hg, ha⟩ := mem_positions.mp (mem_positions_of_index h)
  obtain ⟨ids', hg', ha'⟩ := mem_positions.mp (mem_positions_of_index h')
  obtain ⟨hgroup, rfl⟩ := Prod.mk.inj (Option.some.inj (hg.symm.trans hg'))
  cases res
  cases res'
  simp_all

theorem index_congr (h : s.shape = t.shape) (res : Resource) :
    s.index res = t.index res := by
  rw [index, index, h]

/-- A place of the shape holds a row, under its own ID. -/
theorem rowAt_of_mem_positions (h : (res, at') ∈ positions s.shape) :
    ∃ g a, s.groups[at'.1]? = some g ∧ g.accelerators[at'.2]? = some a ∧
      g.id = res.group ∧ a.id = res.device := by
  obtain ⟨ids, hg, ha⟩ := mem_positions.mp h
  simp only [shape, getElem?_map, Option.map_eq_some_iff, Prod.mk.injEq] at hg
  obtain ⟨g, hg, hid, rfl⟩ := hg
  simp only [getElem?_map, Option.map_eq_some_iff] at ha
  obtain ⟨a, ha, haid⟩ := ha
  exact ⟨g, a, hg, ha, hid, haid⟩

theorem rowAt_isSome_of_index (h : s.index res = some at') :
    ∃ a, s.rowAt at' = some a ∧ a.id = res.device := by
  obtain ⟨g, a, hg, ha, -, hid⟩ := rowAt_of_mem_positions (mem_positions_of_index h)
  exact ⟨a, by rw [rowAt, hg]; exact ha, hid⟩

/-- An identity has a row exactly when some row of the ledger stands under it. -/
theorem row_isSome_iff :
    (s.row res).isSome ↔ ∃ a, (res, a) ∈ s.rows := by
  constructor
  · intro h
    obtain ⟨a, ha⟩ := Option.isSome_iff_exists.mp h
    obtain ⟨at', hi, hat⟩ := Option.bind_eq_some_iff.mp ha
    obtain ⟨g, a', hg, ha', hgid, haid⟩ := rowAt_of_mem_positions (mem_positions_of_index hi)
    refine ⟨a', mem_flatMap.mpr ⟨g, mem_of_getElem? hg, mem_map.mpr
      ⟨a', mem_of_getElem? ha', ?_⟩⟩⟩
    rw [hgid, haid]
  · rintro ⟨a, ha⟩
    obtain ⟨g, hg, hmem⟩ := mem_flatMap.mp ha
    obtain ⟨a', ha', heq⟩ := mem_map.mp hmem
    obtain ⟨i, hi⟩ := mem_iff_getElem?.mp hg
    obtain ⟨j, hj⟩ := mem_iff_getElem?.mp ha'
    obtain ⟨rfl, rfl⟩ := Prod.mk.inj heq
    have hpos : ((⟨g.id, a'.id⟩ : Resource), i, j) ∈ positions s.shape :=
      mem_positions.mpr ⟨g.accelerators.map (·.id), by simp [shape, hi], by simp [hj]⟩
    have hne : (positions s.shape).filter (fun p => p.1 = (⟨g.id, a'.id⟩ : Resource)) ≠ [] :=
      ne_nil_of_mem (mem_filter.mpr ⟨hpos, by simp⟩)
    obtain ⟨at', hat⟩ : ∃ at', s.index ⟨g.id, a'.id⟩ = some at' :=
      ⟨_, by rw [index, getLast?_eq_some_getLast hne]; rfl⟩
    obtain ⟨b, hb, -⟩ := rowAt_isSome_of_index hat
    rw [row, hat, Option.bind_some, hb]
    rfl

/-- A row of a ledger without repeated identities is the row its identity points to. -/
theorem row_of_mem_rows (hd : ((positions s.shape).map (·.1)).Nodup)
    {e : Resource × AcceleratorAllocation} (he : e ∈ s.rows) :
    s.row e.1 = some e.2 := by
  obtain ⟨g, hg, hmem⟩ := mem_flatMap.mp he
  obtain ⟨a, ha, rfl⟩ := mem_map.mp hmem
  obtain ⟨i, hi⟩ := mem_iff_getElem?.mp hg
  obtain ⟨j, hj⟩ := mem_iff_getElem?.mp ha
  have hpos : ((⟨g.id, a.id⟩ : Resource), i, j) ∈ positions s.shape :=
    mem_positions.mpr
      ⟨g.accelerators.map (·.id), by simp [shape, hi], by simp [hj]⟩
  obtain ⟨b, hb⟩ := Option.isSome_iff_exists.mp
    (row_isSome_iff.mpr ⟨a, he⟩)
  obtain ⟨at', hat, -⟩ := Option.bind_eq_some_iff.mp hb
  -- both places stand under one identity, and an identity stands only once
  have hsame : ((⟨g.id, a.id⟩ : Resource), at') = (⟨g.id, a.id⟩, i, j) :=
    inj_on_of_nodup_map hd (mem_positions_of_index hat) hpos rfl
  obtain ⟨-, rfl⟩ := Prod.mk.inj hsame
  rw [row, hat, Option.bind_some, rowAt, hi, Option.bind_some, hj]

/-- The identities of a shape, in order. -/
theorem map_fst_positions (shape : List (String × List String)) :
    (positions shape).map (·.1)
      = shape.flatMap fun g => g.2.map fun id => (⟨g.1, id⟩ : Resource) := by
  have hgroup : ∀ (i : ℕ) (g : String × List String),
      (g.2.zipIdx.map fun a => ((⟨g.1, a.1⟩ : Resource), i, a.2)).map (·.1)
        = g.2.map fun id => (⟨g.1, id⟩ : Resource) := by
    intro i g
    conv_rhs => rw [← zipIdx_map_fst 0 g.2, map_map]
    rw [map_map]
    rfl
  rw [positions, map_flatMap]
  simp only [hgroup]
  rw [← flatMap_map Prod.fst fun g : String × List String =>
    g.2.map fun id => (⟨g.1, id⟩ : Resource)]
  exact congrArg _ (zipIdx_map_fst 0 shape)

/-! ## Updates -/

/-- The group headers of a ledger. -/
def headers (s : DevicesStatus) : List (String × String) :=
  s.groups.map fun g => (g.id, g.manufacturer)

/-- A ledger is its headers and its rows. -/
theorem ext_rowAt (hh : s.headers = t.headers) (hr : ∀ at', s.rowAt at' = t.rowAt at') : s = t := by
  obtain ⟨gs⟩ := s
  obtain ⟨hs⟩ := t
  congr 1
  refine ext_getElem? fun i => ?_
  have hi : (gs[i]?).map (fun g => (g.id, g.manufacturer))
      = (hs[i]?).map (fun g => (g.id, g.manufacturer)) := by
    simpa [headers] using congrArg (·[i]?) hh
  cases hg : gs[i]? with
  | none => simpa [hg, eq_comm] using hi
  | some g =>
    cases hh' : hs[i]? with
    | none => simp [hg, hh'] at hi
    | some h =>
      simp only [hg, hh', Option.map_some, Option.some.injEq, Prod.mk.injEq] at hi
      have hacc : g.accelerators = h.accelerators :=
        ext_getElem? fun j => by simpa [rowAt, hg, hh'] using hr (i, j)
      cases g
      cases h
      simp_all

/-- A modification that `g` does not see is not seen by the map of `g`. -/
theorem map_modify_of_forall {α β : Type*} {f : α → α} {g : α → β} (h : ∀ a, g (f a) = g a) :
    ∀ (i : ℕ) (l : List α), (l.modify i f).map g = l.map g
  | _, [] => by simp
  | 0, a :: l => by simp [h]
  | i + 1, a :: l => by simp [map_modify_of_forall h i l]

section Update

variable {f : AcceleratorAllocation → AcceleratorAllocation}

@[simp] theorem headers_modifyAt (s : DevicesStatus) (at' : ℕ × ℕ) :
    (s.modifyAt at' f).headers = s.headers := by
  rw [headers, headers, modifyAt]
  exact map_modify_of_forall (by simp) at'.1 s.groups

theorem shape_modifyAt (hf : ∀ a, (f a).id = a.id) (s : DevicesStatus) (at' : ℕ × ℕ) :
    (s.modifyAt at' f).shape = s.shape :=
  map_modify_of_forall
    (fun g => congrArg (Prod.mk g.id) (map_modify_of_forall hf at'.2 g.accelerators)) at'.1 s.groups

theorem rowAt_modifyAt (s : DevicesStatus) (at' here : ℕ × ℕ) :
    (s.modifyAt at' f).rowAt here
      = if here = at' then (s.rowAt at').map f else s.rowAt here := by
  obtain ⟨i, j⟩ := at'
  obtain ⟨i', j'⟩ := here
  simp only [rowAt, modifyAt, getElem?_modify, Prod.mk.injEq]
  by_cases hi : i = i'
  · subst hi
    cases s.groups[i]? with
    | none => simp
    | some g =>
      by_cases hj : j = j'
      · subst hj; simp
      · simp [hj, Ne.symm hj]
  · simp [hi, Ne.symm hi]

@[simp] theorem headers_updateRow (s : DevicesStatus) (res : Resource) :
    (s.updateRow res f).headers = s.headers := by
  unfold updateRow
  split
  · rfl
  · exact headers_modifyAt s _

theorem shape_updateRow (hf : ∀ a, (f a).id = a.id) (s : DevicesStatus) (res : Resource) :
    (s.updateRow res f).shape = s.shape := by
  unfold updateRow
  split
  · rfl
  · exact shape_modifyAt hf s _

/-- An update reaches the row of its own identity and no other. -/
theorem row_updateRow (hf : ∀ a, (f a).id = a.id) (s : DevicesStatus) (res here : Resource) :
    (s.updateRow res f).row here = if here = res then (s.row res).map f else s.row here := by
  rw [row, index_congr (shape_updateRow hf s res)]
  unfold updateRow
  split
  · rename_i hnone
    by_cases h : here = res
    · subst h; simp [row, hnone]
    · simp [row, h]
  · rename_i at' hat
    by_cases h : here = res
    · subst h; simp [row, hat, rowAt_modifyAt]
    · cases hi : s.index here with
      | none => simp [row, h, hi]
      | some there =>
        have hne : there ≠ at' := fun heq => h (index_inj hi (heq ▸ hat))
        simp [row, h, hi, rowAt_modifyAt, hne]

end Update

/-! ## Ledgers reached by updates -/

/-- `t` differs from the seed `s` only in rows some identity points to. -/
structure Reworked (s t : DevicesStatus) : Prop where
  headers : t.headers = s.headers
  shape : t.shape = s.shape
  unindexed : ∀ at', (∀ res, s.index res ≠ some at') → t.rowAt at' = s.rowAt at'

theorem Reworked.refl (s : DevicesStatus) : Reworked s s := ⟨rfl, rfl, fun _ _ => rfl⟩

theorem Reworked.updateRow (h : Reworked s t) {f : AcceleratorAllocation → AcceleratorAllocation}
    (hf : ∀ a, (f a).id = a.id) (res : Resource) : Reworked s (t.updateRow res f) where
  headers := (headers_updateRow t res).trans h.headers
  shape := (shape_updateRow hf t res).trans h.shape
  unindexed at' hat := by
    unfold DevicesStatus.updateRow
    split
    · exact h.unindexed at' hat
    · rename_i there hthere
      have hne : at' ≠ there := fun heq =>
        hat res (by rw [← index_congr h.shape, hthere, heq])
      rw [rowAt_modifyAt, if_neg hne]
      exact h.unindexed at' hat

/-- **Two ledgers reworked from one seed are equal when they agree on every identity.** -/
theorem Reworked.eq_of_row {u : DevicesStatus} (ht : Reworked s t) (hu : Reworked s u)
    (h : ∀ res, t.row res = u.row res) : t = u := by
  refine ext_rowAt (ht.headers.trans hu.headers.symm) fun at' => ?_
  by_cases hat : ∃ res, s.index res = some at'
  · obtain ⟨res, hres⟩ := hat
    have hrow := h res
    rwa [row, row, index_congr ht.shape, index_congr hu.shape, hres, Option.bind_some,
      Option.bind_some] at hrow
  · have hnone : ∀ res, s.index res ≠ some at' := fun res hres => hat ⟨res, hres⟩
    rw [ht.unindexed at' hnone, hu.unindexed at' hnone]

end DevicesStatus

end GpuStack
