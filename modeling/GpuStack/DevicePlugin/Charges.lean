import GpuStack.DevicePlugin.Ledger

/-!
# DevicePlugin/Charges — the ledger fold, row by row

A walk over a record charges some of its accelerators: those of the inventory, up to the first
conflict.  Seen through these **charges** the fold is plain: the row of an identity is the row it
started from, with the charges under that identity applied in turn (`row_mergeEntries`,
`row_foldPods`).  Whether a walk meets a conflict is a question row by row too
(`mergeEntries_no_conflict_iff`).
-/

namespace GpuStack

open List

/-! ## Charges -/

/-- The accelerators of a record the walk charges. -/
def chargesOf : List Entry → DevicesStatus → List Entry
  | [], _ => []
  | (res, src) :: es, st =>
    match st.row res with
    | none => chargesOf es st
    | some dst =>
      if conflicts src dst then []
      else (res, src) :: chargesOf es (st.updateRow res (chargeRow src))

/-- The entries standing under one identity. -/
def entriesAt (res : Resource) (es : List Entry) : List AcceleratorAllocation :=
  (es.filter fun e => e.1 = res).map (·.2)

/-- A row after several accelerators are charged to it. -/
def chargeRows (srcs : List AcceleratorAllocation) (dst : AcceleratorAllocation) :
    AcceleratorAllocation :=
  srcs.foldl (fun dst src => chargeRow src dst) dst

@[simp] theorem entriesAt_nil (res : Resource) : entriesAt res [] = [] := rfl

theorem entriesAt_cons (res : Resource) (e : Entry) (es : List Entry) :
    entriesAt res (e :: es) = if e.1 = res then e.2 :: entriesAt res es else entriesAt res es := by
  by_cases h : e.1 = res <;> simp [entriesAt, h]

theorem entriesAt_append (res : Resource) (es es' : List Entry) :
    entriesAt res (es ++ es') = entriesAt res es ++ entriesAt res es' := by
  simp [entriesAt]

variable {es : List Entry}

theorem mem_entriesAt {res : Resource} {a : AcceleratorAllocation} :
    a ∈ entriesAt res es ↔ (res, a) ∈ es := by
  simp [entriesAt]

@[simp] theorem chargeRows_nil : chargeRows [] = id := rfl

@[simp] theorem chargeRows_cons (src : AcceleratorAllocation) (srcs : List AcceleratorAllocation)
    (dst : AcceleratorAllocation) :
    chargeRows (src :: srcs) dst = chargeRows srcs (chargeRow src dst) := rfl

theorem chargeRows_append (srcs srcs' : List AcceleratorAllocation) (dst : AcceleratorAllocation) :
    chargeRows (srcs ++ srcs') dst = chargeRows srcs' (chargeRows srcs dst) :=
  foldl_append

@[simp] theorem chargeRow_id (src dst : AcceleratorAllocation) : (chargeRow src dst).id = dst.id :=
  rfl

theorem row_charge (st : DevicesStatus) (src : AcceleratorAllocation) (res here : Resource) :
    (st.updateRow res (chargeRow src)).row here
      = if here = res then (st.row res).map (chargeRow src) else st.row here :=
  DevicesStatus.row_updateRow (chargeRow_id src) st res here

/-- Charging keeps the inventory: an identity has a row after iff it had one before. -/
theorem row_charge_isSome (st : DevicesStatus) (src : AcceleratorAllocation)
    (res here : Resource) :
    ((st.updateRow res (chargeRow src)).row here).isSome = (st.row here).isSome := by
  rw [row_charge]
  split
  · rename_i h
    rw [Option.isSome_map, h]
  · rfl

section Walk

variable {st : DevicesStatus} {e : Entry} {es : List Entry} {dst : AcceleratorAllocation}

/-- The walk passes over an accelerator outside the inventory. -/
theorem mergeEntries_absent (h : st.row e.1 = none) :
    mergeEntries (e :: es) st = mergeEntries es st := by
  simp only [mergeEntries, h]

/-- The walk ends at a conflict. -/
theorem mergeEntries_conflict (h : st.row e.1 = some dst) (hc : conflicts e.2 dst = true) :
    mergeEntries (e :: es) st = (st, some ⟨e.1, dst.mode, e.2.mode⟩) := by
  simp only [mergeEntries, h, hc, if_true]

/-- The walk charges what is accepted. -/
theorem mergeEntries_charge (h : st.row e.1 = some dst) (hc : conflicts e.2 dst = false) :
    mergeEntries (e :: es) st = mergeEntries es (st.updateRow e.1 (chargeRow e.2)) := by
  simp only [mergeEntries, h, hc, Bool.false_eq_true, if_false]

end Walk

/-- **The walk, row by row**: the charges under an identity are applied to its row. -/
theorem row_mergeEntries (here : Resource) :
    ∀ (es : List Entry) (st : DevicesStatus), (mergeEntries es st).1.row here
      = (st.row here).map (chargeRows (entriesAt here (chargesOf es st)))
  | [], st => by simp [mergeEntries, chargesOf]
  | (res, src) :: es, st => by
      rw [mergeEntries, chargesOf]
      rcases hrow : st.row res with _ | dst
      · exact row_mergeEntries here es st
      · by_cases hc : conflicts src dst = true
        · simp [hc]
        · simp only [hc, Bool.false_eq_true, if_false]
          rw [row_mergeEntries here es, row_charge, entriesAt_cons]
          by_cases h : res = here
          · subst h
            rw [if_pos rfl, if_pos rfl, Option.map_map]
            rfl
          · rw [if_neg (Ne.symm h), if_neg h]

/-- A walk only reworks rows. -/
theorem reworked_mergeEntries {seed : DevicesStatus} :
    ∀ (es : List Entry) (st : DevicesStatus), DevicesStatus.Reworked seed st →
      DevicesStatus.Reworked seed (mergeEntries es st).1
  | [], _, h => h
  | (res, src) :: es, st, h => by
      rw [mergeEntries]
      rcases st.row res with _ | dst
      · exact reworked_mergeEntries es st h
      · by_cases hc : conflicts src dst = true
        · simpa [hc] using h
        · simp only [hc, Bool.false_eq_true, if_false]
          exact reworked_mergeEntries es _ (h.updateRow (chargeRow_id src) res)

/-- A walk that reports no conflict charged every accelerator of the inventory it was given. -/
theorem chargesOf_of_no_conflict :
    ∀ (es : List Entry) (st : DevicesStatus), (mergeEntries es st).2 = none →
      chargesOf es st = es.filter fun e => (st.row e.1).isSome
  | [], _, _ => rfl
  | (res, src) :: es, st, h => by
      rw [mergeEntries] at h
      rw [chargesOf]
      rcases hrow : st.row res with _ | dst
      · simp only [hrow] at h
        simp [chargesOf_of_no_conflict es st h, hrow]
      · by_cases hc : conflicts src dst = true
        · simp [hrow, hc] at h
        · simp only [hrow, hc, Bool.false_eq_true, if_false] at h ⊢
          rw [chargesOf_of_no_conflict es _ h]
          simp [row_charge_isSome, hrow]

/-- A clean walk charges everything the record puts on an accelerator of the inventory. -/
theorem entriesAt_chargesOf_of_no_conflict {st : DevicesStatus}
    (h : (mergeEntries es st).2 = none) {here : Resource} (hrow : (st.row here).isSome) :
    entriesAt here (chargesOf es st) = entriesAt here es := by
  rw [chargesOf_of_no_conflict es st h, entriesAt, entriesAt, filter_filter]
  congr 1
  refine filter_congr fun e _ => ?_
  by_cases he : e.1 = here
  · simp [he, hrow]
  · simp [he]

/-- The row of an identity after a clean walk. -/
theorem row_mergeEntries_of_no_conflict {st : DevicesStatus}
    (h : (mergeEntries es st).2 = none) (here : Resource) :
    (mergeEntries es st).1.row here = (st.row here).map (chargeRows (entriesAt here es)) := by
  rw [row_mergeEntries]
  rcases hrow : st.row here with _ | dst
  · rfl
  · rw [entriesAt_chargesOf_of_no_conflict h (by rw [hrow]; rfl)]

/-! ### When a walk meets no conflict -/

/-- The row takes these accelerators one after another without a conflict. -/
def Accepts : List AcceleratorAllocation → AcceleratorAllocation → Prop
  | [], _ => True
  | src :: srcs, dst => conflicts src dst = false ∧ Accepts srcs (chargeRow src dst)

/-- **A walk meets no conflict exactly when every row accepts what the record puts on it.** -/
theorem mergeEntries_no_conflict_iff :
    ∀ (es : List Entry) (st : DevicesStatus), (mergeEntries es st).2 = none ↔
      ∀ res dst, st.row res = some dst → Accepts (entriesAt res es) dst
  | [], st => by simp [mergeEntries, Accepts]
  | (res, src) :: es, st => by
      rw [mergeEntries]
      rcases hrow : st.row res with _ | dst
      · rw [mergeEntries_no_conflict_iff es st]
        refine forall_congr' fun here => forall_congr' fun d => imp_congr_right fun hd => ?_
        have hne : res ≠ here := by
          rintro rfl
          simp [hrow] at hd
        rw [entriesAt_cons, if_neg hne]
      · by_cases hc : conflicts src dst = true
        · simp only [hc, if_true, reduceCtorEq, false_iff]
          intro h
          have hacc := h res dst hrow
          rw [entriesAt_cons, if_pos rfl, Accepts, hc] at hacc
          exact Bool.noConfusion hacc.1
        · simp only [hc, Bool.false_eq_true, if_false]
          rw [mergeEntries_no_conflict_iff es]
          constructor
          · intro h here d hd
            rw [entriesAt_cons]
            by_cases hr : res = here
            · subst hr
              obtain rfl : dst = d := Option.some.inj (hrow.symm.trans hd)
              rw [if_pos rfl]
              refine ⟨Bool.not_eq_true _ ▸ hc, h res _ ?_⟩
              rw [row_charge, if_pos rfl, hrow, Option.map_some]
            · rw [if_neg hr]
              exact h here d (by rw [row_charge, if_neg (Ne.symm hr), hd])
          · intro h here d hd
            rw [row_charge] at hd
            by_cases hr : here = res
            · subst hr
              rw [if_pos rfl, hrow, Option.map_some] at hd
              obtain rfl := Option.some.inj hd
              have hacc := h here dst hrow
              rw [entriesAt_cons, if_pos rfl] at hacc
              exact hacc.2
            · rw [if_neg hr] at hd
              have hacc := h here d hd
              rwa [entriesAt_cons, if_neg (Ne.symm hr)] at hacc

/-- A row that is held accepts only its own mode. -/
theorem Accepts.mode_eq {srcs : List AcceleratorAllocation} :
    ∀ {dst : AcceleratorAllocation}, Accepts srcs dst → dst.mode ≠ .none →
      ∀ src ∈ srcs, src.mode = dst.mode := by
  induction srcs with
  | nil => simp
  | cons s srcs ih =>
    intro dst h hheld
    have hs : s.mode = dst.mode := by
      have := h.1
      simp only [conflicts, ne_eq, Bool.and_eq_false_iff, decide_eq_false_iff_not, not_not] at this
      rcases this with hn | heq
      · exact absurd hn hheld
      · exact heq.symm
    intro src hsrc
    rcases mem_cons.mp hsrc with rfl | hsrc
    · exact hs
    · exact (ih h.2 (by simpa [chargeRow, hs] using hheld) src hsrc).trans hs

/-- One mode everywhere is accepted, by a row that is free or already in it. -/
theorem accepts_of_mode {m : DeviceAllocationMode} :
    ∀ {srcs : List AcceleratorAllocation} {dst : AcceleratorAllocation},
      (dst.mode = .none ∨ dst.mode = m) → (∀ src ∈ srcs, src.mode = m) → Accepts srcs dst
  | [], _, _, _ => trivial
  | src :: srcs, dst, hdst, h => by
      have hm : src.mode = m := h src (.head _)
      refine ⟨?_, accepts_of_mode (Or.inr hm) fun s hs => h s (.tail _ hs)⟩
      rcases hdst with hd | hd <;> simp [conflicts, hd, hm]

/-! ### The columns of a charged row -/

/-- Units left after taking several amounts, never below zero. -/
def unitsLeft (units : List ℤ) (remaining : ℤ) : ℤ :=
  units.foldl (fun r u => max (r - u) 0) remaining

theorem remaining_chargeRows (srcs : List AcceleratorAllocation) (dst : AcceleratorAllocation) :
    (chargeRows srcs dst).remaining = unitsLeft (srcs.map (·.allocated)) dst.remaining := by
  induction srcs generalizing dst with
  | nil => rfl
  | cons src srcs ih =>
    rw [chargeRows_cons, ih]
    rfl

theorem allocatedSlices_chargeRows (srcs : List AcceleratorAllocation)
    (dst : AcceleratorAllocation) :
    (chargeRows srcs dst).allocatedSlices
      = dst.allocatedSlices + (srcs.countP fun src => src.mode = .sliced) := by
  induction srcs generalizing dst with
  | nil => simp
  | cons src srcs ih =>
    rw [chargeRows_cons, ih, countP_cons]
    by_cases h : src.mode = .sliced
    · simp only [chargeRow, h, if_true, decide_true]
      push_cast
      ring
    · simp [chargeRow, h]

/-- Charges of one mode leave the row in it. -/
theorem mode_chargeRows {m : DeviceAllocationMode} :
    ∀ (srcs : List AcceleratorAllocation) (dst : AcceleratorAllocation), srcs ≠ [] →
      (∀ src ∈ srcs, src.mode = m) → (chargeRows srcs dst).mode = m
  | [src], _, _, h => h src (.head _)
  | _ :: src :: srcs, _, _, h =>
      mode_chargeRows (src :: srcs) _ (cons_ne_nil _ _)
        fun s hs => h s (.tail _ hs)

/-- A row that accepts a mode ends up in it. -/
theorem Accepts.mode_of_mem {src : AcceleratorAllocation} (hmode : src.mode ≠ .none) :
    ∀ {srcs : List AcceleratorAllocation} {dst : AcceleratorAllocation}, Accepts srcs dst →
      src ∈ srcs → (chargeRows srcs dst).mode = src.mode
  | s :: srcs, dst, hacc, hmem => by
      rcases mem_cons.mp hmem with rfl | hmem
      · rcases hsrcs : srcs with _ | ⟨t, ts⟩
        · rfl
        · rw [← hsrcs, chargeRows_cons]
          exact mode_chargeRows srcs _ (hsrcs ▸ cons_ne_nil t ts)
            (hacc.2.mode_eq hmode)
      · exact hacc.2.mode_of_mem hmode hmem

/-- The rest of a row is not touched. -/
theorem chargeRows_eq (srcs : List AcceleratorAllocation) (dst : AcceleratorAllocation) :
    chargeRows srcs dst =
      { dst with
        mode := (chargeRows srcs dst).mode
        remaining := (chargeRows srcs dst).remaining
        allocatedSlices := (chargeRows srcs dst).allocatedSlices } := by
  induction srcs generalizing dst with
  | nil => rfl
  | cons src srcs ih => exact ih (chargeRow src dst)

/-! ### Over the Pods -/

/-- The ledger part of one Pod's step. -/
def mergePod (released : Bool) (pod : Pod) (st : DevicesStatus) :
    DevicesStatus × Option ModeConflict :=
  match heldStatusOf released pod with
  | none => (st, none)
  | some held => applyAllocatedStatus held st

/-- The charges of one Pod. -/
def chargesOfPod (released : Bool) (pod : Pod) (st : DevicesStatus) : List Entry :=
  match heldStatusOf released pod with
  | none => []
  | some held => chargesOf held.rows st

/-- The charges of every Pod of a list, Pod by Pod. -/
def podCharges (released : Bool) : List Pod → DevicesStatus → List (List Entry)
  | [], _ => []
  | pod :: pods, st =>
    chargesOfPod released pod st :: podCharges released pods (mergePod released pod st).1

theorem status_foldPod (released : Bool) (st : FoldState) (pod : Pod) :
    (foldPod released st pod).1.status = (mergePod released pod st.status).1 := by
  rw [foldPod, mergePod]
  rcases heldStatusOf released pod with _ | held
  · rfl
  · rcases hm : applyAllocatedStatus held st.status with ⟨status, _ | conflict⟩ <;> simp [hm]

theorem row_mergePod (released : Bool) (pod : Pod) (st : DevicesStatus) (here : Resource) :
    (mergePod released pod st).1.row here
      = (st.row here).map (chargeRows (entriesAt here (chargesOfPod released pod st))) := by
  rw [mergePod, chargesOfPod]
  rcases heldStatusOf released pod with _ | held
  · simp
  · exact row_mergeEntries here held.rows st

/-- **The fold, row by row**: every row is the row it started from, charged by every Pod in turn. -/
theorem row_foldPods (released : Bool) (here : Resource) (pods : List Pod) (st : FoldState) :
    (foldPods released pods st).status.row here
      = (st.status.row here).map
          (chargeRows (entriesAt here (podCharges released pods st.status).flatten)) := by
  induction pods generalizing st with
  | nil => simp [foldPods, podCharges]
  | cons pod pods ih =>
    rw [foldPods, foldl_cons, ← foldPods, ih, status_foldPod, row_mergePod, podCharges,
      flatten_cons, entriesAt_append, Option.map_map]
    congr 1
    funext dst
    exact (chargeRows_append _ _ dst).symm

theorem reworked_foldPods (released : Bool) {seed : DevicesStatus} (pods : List Pod)
    (st : FoldState) (h : DevicesStatus.Reworked seed st.status) :
    DevicesStatus.Reworked seed (foldPods released pods st).status := by
  induction pods generalizing st with
  | nil => exact h
  | cons pod pods ih =>
    refine ih _ ?_
    rw [status_foldPod, mergePod]
    rcases heldStatusOf released pod with _ | held
    · exact h
    · exact reworked_mergeEntries held.rows _ h

end GpuStack
