import GpuStack.DevicePlugin.Rebuild

/-!
# DevicePlugin/LedgerOrder — the ledger does not depend on the order of the Pods

When no record is unreadable and no accelerator is held in two modes, the fold over the Pods is one
walk over everything they hold (`foldPods_eq_walk`).  Such a walk has a closed form row by row —
the mode, the units left over the *sum* of the units, the number of slices — and none of these
sees an order.
-/

namespace GpuStack

open List

/-! ## Several walks in a row -/

theorem mergeEntries_append :
    ∀ (es es' : List Entry) (st : DevicesStatus), mergeEntries (es ++ es') st
      = if (mergeEntries es st).2 = none then mergeEntries es' (mergeEntries es st).1
        else mergeEntries es st
  | [], _, _ => by simp [mergeEntries]
  | e :: es, es', st => by
      rw [cons_append]
      rcases hrow : st.row e.1 with _ | dst
      · rw [mergeEntries_absent hrow, mergeEntries_absent hrow, mergeEntries_append es es' st]
      · by_cases hc : conflicts e.2 dst = true
        · rw [mergeEntries_conflict hrow hc, mergeEntries_conflict hrow hc, if_neg (by simp)]
        · have hc' : conflicts e.2 dst = false := Bool.eq_false_of_not_eq_true hc
          rw [mergeEntries_charge hrow hc', mergeEntries_charge hrow hc', mergeEntries_append es es']

/-- Everything the Pods of a list hold. -/
def heldEntries (released : Bool) (pods : List Pod) : List Entry :=
  pods.flatMap fun pod => ((heldStatusOf released pod).map DevicesStatus.rows).getD []

theorem heldEntries_cons (released : Bool) (pod : Pod) (pods : List Pod) :
    heldEntries released (pod :: pods)
      = ((heldStatusOf released pod).map DevicesStatus.rows).getD [] ++ heldEntries released pods :=
  flatMap_cons

variable {released : Bool} {es' es : List Entry} {spec : List DevicesGroup}

theorem heldStatusOf_isSome {pod : Pod} :
    (heldStatusOf released pod).isSome = (allocatedAcceleratorsOf pod).isSome := by
  rw [heldStatusOf, allocatedStatusOf, Option.isSome_map, Option.isSome_map]

/-- **Readable Pods in no conflict are folded as one walk** over everything they hold. -/
theorem foldPods_eq_walk {pods : List Pod} {st : FoldState}
    (hread : ∀ pod ∈ pods, (allocatedAcceleratorsOf pod).isSome)
    (hclean : (mergeEntries (heldEntries released pods) st.status).2 = none) :
    foldPods released pods st
      = ⟨(mergeEntries (heldEntries released pods) st.status).1,
          (heldEntries released pods).foldl occupyPhysical st.maps⟩ := by
  induction pods generalizing st with
  | nil => rfl
  | cons pod pods ih =>
    obtain ⟨held, hheld⟩ : ∃ held, heldStatusOf released pod = some held :=
      Option.isSome_iff_exists.mp
        (heldStatusOf_isSome.trans (hread pod (.head _)))
    have hentries : heldEntries released (pod :: pods) = held.rows ++ heldEntries released pods := by
      rw [heldEntries_cons, hheld]
      rfl
    rw [hentries, mergeEntries_append] at hclean
    by_cases hnone : (mergeEntries held.rows st.status).2 = none
    · rw [if_pos hnone] at hclean
      have hpod : (foldPod released st pod).1
          = ⟨(mergeEntries held.rows st.status).1, held.rows.foldl occupyPhysical st.maps⟩ := by
        rcases hm : mergeEntries held.rows st.status with ⟨status, _ | c⟩
        · simp [foldPod, hheld, applyAllocatedStatus, hm, accumulatePhysicalOccupied]
        · simp [hm] at hnone
      rw [hentries, mergeEntries_append, if_pos hnone, foldl_append]
      change foldPods released pods (foldPod released st pod).1 = _
      rw [hpod]
      exact ih (fun q hq => hread q (.tail _ hq)) hclean
    · rw [if_neg hnone] at hclean
      exact absurd hclean hnone

/-! ## The closed form of a clean walk -/

/-- No accelerator stands under two modes. -/
def OneMode (es : List Entry) : Prop :=
  ∀ e ∈ es, ∀ e' ∈ es, e.1 = e'.1 → e.2.mode = e'.2.mode

theorem OneMode.perm (h : OneMode es) (hp : es.Perm es') : OneMode es' :=
  fun e he e' he' => h e (hp.mem_iff.mpr he) e' (hp.mem_iff.mpr he')

/-- Taking nonnegative amounts one by one is taking their sum. -/
theorem unitsLeft_eq {units : List ℤ} (h : ∀ u ∈ units, 0 ≤ u) :
    ∀ {remaining : ℤ}, 0 ≤ remaining →
      unitsLeft units remaining = max 0 (remaining - units.sum) := by
  induction units with
  | nil =>
    intro remaining hr
    simp [unitsLeft, hr]
  | cons u units ih =>
    intro remaining hr
    have hu : 0 ≤ u := h u (.head _)
    have hsum : 0 ≤ units.sum := sum_nonneg fun v hv => h v (.tail _ hv)
    have hstep : unitsLeft (u :: units) remaining = unitsLeft units (max (remaining - u) 0) := rfl
    rw [hstep, ih (fun v hv => h v (.tail _ hv)) (le_max_right _ _), sum_cons]
    omega

/-- A seed row is free and full. -/
theorem row_initDesiredStatus {res : Resource} {dst : AcceleratorAllocation}
    (h : (initDesiredStatus spec).row res = some dst) :
    dst.mode = .none ∧ dst.remaining = resourceMaxUnits ∧ dst.allocatedSlices = 0 := by
  obtain ⟨at', hi, hat⟩ := Option.bind_eq_some_iff.mp h
  rw [DevicesStatus.rowAt, initDesiredStatus, getElem?_map] at hat
  rcases hg : spec[at'.1]? with _ | grp
  · simp [hg] at hat
  · rw [hg, Option.map_some, Option.bind_some, getElem?_map] at hat
    obtain ⟨acc, -, rfl⟩ := Option.map_eq_some_iff.mp hat
    exact ⟨rfl, rfl, rfl⟩

/-- Held in one mode, everything is accepted by the seed. -/
theorem OneMode.clean (h : OneMode es) (spec : List DevicesGroup) :
    (mergeEntries es (initDesiredStatus spec)).2 = none := by
  refine (mergeEntries_no_conflict_iff es _).mpr fun res dst hrow => ?_
  have hfree := (row_initDesiredStatus hrow).1
  rcases hes : entriesAt res es with _ | ⟨src, srcs⟩
  · trivial
  · have hsrc : (res, src) ∈ es := mem_entriesAt.mp (hes ▸ .head _)
    refine accepts_of_mode (m := src.mode) (Or.inl hfree) fun s hs => ?_
    exact h (res, s) (mem_entriesAt.mp (hes ▸ hs)) (res, src) hsrc rfl

/-- **What a clean walk leaves of an accelerator**: the whole less the sum of the units, never below
zero. -/
theorem remaining_of_walk (hdistinct : (specResources spec).Nodup)
    (hunits : ∀ e ∈ es, 0 ≤ e.2.allocated)
    (hclean : (mergeEntries es (initDesiredStatus spec)).2 = none)
    {maps : Placements × ProfileCounts} {e : Entry}
    (he : e ∈ (foldPhysicalLedger spec (mergeEntries es (initDesiredStatus spec)).1 maps).rows) :
    e.2.remaining = max 0 (resourceMaxUnits - ((entriesAt e.1 es).map (·.allocated)).sum) := by
  have hal : Aligned spec (mergeEntries es (initDesiredStatus spec)).1 :=
    Aligned.of_reworked (reworked_mergeEntries es _ (DevicesStatus.Reworked.refl _))
  have hnd : ((DevicesStatus.positions (foldPhysicalLedger spec
      (mergeEntries es (initDesiredStatus spec)).1 maps).shape).map (·.1)).Nodup := by
    rw [hal.shape_foldPhysicalLedger, hal.map_fst_positions]
    exact hdistinct
  obtain ⟨f, hf, hrow⟩ := row_foldPhysicalLedger spec maps e.1
  have hlast := DevicesStatus.row_of_mem_rows hnd he
  rw [hrow _ hal, row_mergeEntries_of_no_conflict hclean, Option.map_map] at hlast
  obtain ⟨dst, hdst, hend⟩ := Option.map_eq_some_iff.mp hlast
  have hu : ∀ u ∈ (entriesAt e.1 es).map (·.allocated), 0 ≤ u := by
    intro u hu
    obtain ⟨a, ha, rfl⟩ := mem_map.mp hu
    exact hunits (e.1, a) (mem_entriesAt.mp ha)
  have hfull := (row_initDesiredStatus hdst).2.1
  rw [← hend, Function.comp_apply, (hf _).2.1, remaining_chargeRows,
    unitsLeft_eq hu (by rw [hfull]; decide), hfull]

/-! ## The rebuild -/

/-- The rebuild of readable Pods that hold every accelerator in one mode. -/
theorem buildDesiredStatus_eq_walk {pods : List Pod}
    (hread : ∀ pod ∈ pods, (allocatedAcceleratorsOf pod).isSome)
    (hmode : OneMode (heldEntries released pods)) :
    (buildDesiredStatus released spec pods).1
      = foldPhysicalLedger spec
          (mergeEntries (heldEntries released pods) (initDesiredStatus spec)).1
          ((heldEntries released pods).foldl occupyPhysical (∅, ∅)) := by
  have hfold : foldPods released pods ⟨initDesiredStatus spec, ∅, ∅⟩ = _ :=
    foldPods_eq_walk hread (hmode.clean spec)
  rw [buildDesiredStatus, hfold]

/-- One whole card. -/
def oneCard : List DevicesGroup :=
  [{ id := "g", manufacturer := "nvidia", accelerators := [{ id := "x" }] }]

/-- A Pod sharing that card. -/
def sharer (uid : String) : Pod :=
  { uid
    annotation := .recorded (AList.singleton "c" ⟨⟨[⟨"g", "nvidia",
      [{ id := "x", mode := .shared, allocated := 160000 }]⟩]⟩, []⟩) }

end GpuStack
