import GpuStack.DevicePlugin.Rebuild

/-!
# DevicePlugin/LedgerConflict — what a record in conflict leaves behind

The fold means a Pod whose record conflicts with the ledger to change nothing.  It does not undo the
accelerators it charged before the conflicting one, so the Pod changes nothing exactly when those
charges leave no trace (`LeavesNoTrace`): each names an accelerator already held in the same mode,
is no slice, and takes no unit the row still has.
-/

namespace GpuStack

/-- A Pod as it would be with its allocation record removed. -/
def Pod.withoutRecord (pod : Pod) : Pod := { pod with annotation := .absent }

/-- The fold's ledger after these Pods, before the profile columns are set. -/
def ledgerOf (released : Bool) (spec : List DevicesGroup) (pods : List Pod) : DevicesStatus :=
  (foldPods released pods ⟨initDesiredStatus spec, ∅, ∅⟩).status

/-- Charging these accelerators to the row would not change it. -/
def LeavesNoTrace (dst : AcceleratorAllocation) (srcs : List AcceleratorAllocation) : Prop :=
  (∀ src ∈ srcs, src.mode = dst.mode ∧ src.mode ≠ .sliced) ∧
    unitsLeft (srcs.map (·.allocated)) dst.remaining = dst.remaining

/-! ## The walk stops at the conflict -/

/-- A walk in conflict is a clean walk up to the conflicting accelerator. -/
theorem exists_split_of_conflict :
    ∀ (es : List Entry) (st : DevicesStatus) (conflict : ModeConflict),
      (mergeEntries es st).2 = some conflict →
      ∃ before e after, es = before ++ e :: after ∧ e.1 = conflict.res ∧
        (mergeEntries before st).2 = none ∧ (mergeEntries es st).1 = (mergeEntries before st).1
  | [], _, _, h => by simp [mergeEntries] at h
  | x :: es, st, conflict, h => by
      rcases hrow : st.row x.1 with _ | dst
      · rw [mergeEntries_absent hrow] at h ⊢
        obtain ⟨before, e, after, rfl, he, hnone, hfst⟩ :=
          exists_split_of_conflict es st conflict h
        refine ⟨x :: before, e, after, rfl, he, ?_, ?_⟩
        · rwa [mergeEntries_absent hrow]
        · rwa [mergeEntries_absent hrow]
      · by_cases hc : conflicts x.2 dst = true
        · rw [mergeEntries_conflict hrow hc] at h ⊢
          exact ⟨[], x, es, rfl, congrArg ModeConflict.res (Option.some.inj h), rfl, rfl⟩
        · have hc' : conflicts x.2 dst = false := Bool.eq_false_of_not_eq_true hc
          rw [mergeEntries_charge hrow hc'] at h ⊢
          obtain ⟨before, e, after, rfl, he, hnone, hfst⟩ :=
            exists_split_of_conflict es _ conflict h
          refine ⟨x :: before, e, after, rfl, he, ?_, ?_⟩
          · rwa [mergeEntries_charge hrow hc']
          · rwa [mergeEntries_charge hrow hc']

/-! ## Charges that leave no trace -/

variable {srcs : List AcceleratorAllocation}

/-- Accepted charges that end in no mode were all of no mode. -/
theorem Accepts.mode_none :
    ∀ {dst : AcceleratorAllocation}, Accepts srcs dst → (chargeRows srcs dst).mode = .none →
      ∀ src ∈ srcs, src.mode = .none := by
  induction srcs with
  | nil => simp
  | cons s srcs ih =>
    intro dst h hend
    have hs : s.mode = .none := by
      by_contra hne
      -- once the row is held, every later charge repeats its mode, and so does the last
      have hall : ∀ src ∈ srcs, src.mode = (chargeRow s dst).mode := h.2.mode_eq hne
      rcases srcs with _ | ⟨s', srcs⟩
      · exact hne hend
      · rw [chargeRows_cons, mode_chargeRows _ _ (List.cons_ne_nil _ _) hall] at hend
        exact hne hend
    intro src hsrc
    rcases List.mem_cons.mp hsrc with rfl | hsrc
    · exact hs
    · exact ih h.2 hend src hsrc

/-- **A row keeps its mode, units and slices under accepted charges iff they leave no trace.** -/
theorem Accepts.leavesNoTrace_iff
    {dst : AcceleratorAllocation} (h : Accepts srcs dst) :
    LeavesNoTrace dst srcs ↔ (chargeRows srcs dst).mode = dst.mode ∧
      (chargeRows srcs dst).remaining = dst.remaining ∧
      (chargeRows srcs dst).allocatedSlices = dst.allocatedSlices := by
  rw [remaining_chargeRows, allocatedSlices_chargeRows]
  constructor
  · rintro ⟨hmode, hunits⟩
    refine ⟨?_, hunits, ?_⟩
    · rcases srcs with _ | ⟨s, srcs⟩
      · rfl
      · exact mode_chargeRows _ _ (List.cons_ne_nil _ _) fun src hsrc => (hmode src hsrc).1
    · have hzero : srcs.countP (fun src => src.mode = .sliced) = 0 :=
        List.countP_eq_zero.mpr fun src hsrc => by simpa using (hmode src hsrc).2
      rw [hzero]
      simp
  · rintro ⟨hmode, hunits, hslices⟩
    have hzero : srcs.countP (fun src => src.mode = .sliced) = 0 := by omega
    have hsliced : ∀ src ∈ srcs, src.mode ≠ .sliced := fun src hsrc => by
      simpa using List.countP_eq_zero.mp hzero src hsrc
    refine ⟨fun src hsrc => ⟨?_, hsliced src hsrc⟩, hunits⟩
    by_cases hheld : dst.mode = .none
    · rw [hheld, h.mode_none (hmode.trans hheld) src hsrc]
    · exact h.mode_eq hheld src hsrc

/-- Charges that leave no trace leave the row as it was. -/
theorem LeavesNoTrace.chargeRows_eq
    {dst : AcceleratorAllocation} (hacc : Accepts srcs dst) (h : LeavesNoTrace dst srcs) :
    chargeRows srcs dst = dst := by
  obtain ⟨hmode, hunits, hslices⟩ := hacc.leavesNoTrace_iff.mp h
  rw [GpuStack.chargeRows_eq, hmode, hunits, hslices]

/-! ## The Pod in the whole rebuild -/

theorem heldStatusOf_withoutRecord (released : Bool) (pod : Pod) :
    heldStatusOf released pod.withoutRecord = some ⟨[]⟩ := by
  have hagg : allocatedStatusOf pod.withoutRecord = some ⟨[]⟩ := rfl
  rw [heldStatusOf, hagg, Option.map_some, heldAllocation]
  split <;> rfl

/-- Without its record a Pod is passed over. -/
theorem foldPod_withoutRecord (released : Bool) (st : FoldState) (pod : Pod) :
    (foldPod released st pod.withoutRecord).1 = st := by
  rw [foldPod, heldStatusOf_withoutRecord]
  rfl

theorem foldPods_append (released : Bool) (pre post : List Pod) (st : FoldState) :
    foldPods released (pre ++ post) st = foldPods released post (foldPods released pre st) :=
  List.foldl_append

theorem foldPods_cons (released : Bool) (pod : Pod) (pods : List Pod) (st : FoldState) :
    foldPods released (pod :: pods) st = foldPods released pods (foldPod released st pod).1 := rfl

/-- A Pod in conflict leaves the partition maps alone. -/
theorem foldPod_of_conflict {released : Bool} {st : FoldState} {pod : Pod}
    {conflict : ModeConflict} (h : (mergePod released pod st.status).2 = some conflict) :
    (foldPod released st pod).1 = ⟨(mergePod released pod st.status).1, st.maps⟩ := by
  rcases hheld : heldStatusOf released pod with _ | held
  · simp [mergePod, hheld] at h
  · rcases hm : applyAllocatedStatus held st.status with ⟨status, _ | c⟩
    · simp [mergePod, hheld, hm] at h
    · simp [foldPod, mergePod, hheld, hm]

theorem aligned_ledgerOf (released : Bool) (spec : List DevicesGroup) (pods : List Pod) :
    Aligned spec (ledgerOf released spec pods) :=
  Aligned.of_reworked (reworked_foldPods released pods _ (DevicesStatus.Reworked.refl _))

/-- Two rebuilds that agree after the profile pass agree before it on mode, units and slices. -/
theorem columns_eq_of_foldPhysicalLedger_eq {spec : List DevicesGroup} {s t : DevicesStatus}
    {maps : Placements × ProfileCounts} (hs : Aligned spec s) (ht : Aligned spec t)
    (h : foldPhysicalLedger spec s maps = foldPhysicalLedger spec t maps) (res : Resource)
    {a b : AcceleratorAllocation} (ha : s.row res = some a) (hb : t.row res = some b) :
    a.mode = b.mode ∧ a.remaining = b.remaining ∧ a.allocatedSlices = b.allocatedSlices := by
  obtain ⟨f, hf, hrow⟩ := row_foldPhysicalLedger spec maps res
  have hab : f a = f b := by
    have := congrArg (DevicesStatus.row · res) h
    simp only [hrow s hs, hrow t ht, ha, hb, Option.map_some] at this
    exact Option.some.inj this
  exact ⟨by rw [← (hf a).1, hab, (hf b).1], by rw [← (hf a).2.1, hab, (hf b).2.1],
    by rw [← (hf a).2.2, hab, (hf b).2.2]⟩

/-- **When a Pod in conflict changes nothing.**  With `before` the accelerators of its record ahead
of the conflicting one, the rebuild ignores the Pod, whatever Pods follow, iff `before` leaves no
trace on any row of the ledger the Pod was merged into. -/
theorem rebuild_ignores_conflicting_pod_iff {released : Bool} {spec : List DevicesGroup}
    {pre : List Pod} {pod : Pod} {conflict : ModeConflict}
    (h : (mergePod released pod (ledgerOf released spec pre)).2 = some conflict) :
    ∃ held before e after, heldStatusOf released pod = some held ∧
      held.rows = before ++ e :: after ∧ e.1 = conflict.res ∧
      (mergeEntries before (ledgerOf released spec pre)).2 = none ∧
      ((∀ post, (buildDesiredStatus released spec (pre ++ pod :: post)).1
          = (buildDesiredStatus released spec (pre ++ pod.withoutRecord :: post)).1) ↔
        ∀ res dst, (ledgerOf released spec pre).row res = some dst →
          LeavesNoTrace dst (entriesAt res before)) := by
  obtain ⟨held, hheld⟩ : ∃ held, heldStatusOf released pod = some held := by
    rcases hheld : heldStatusOf released pod with _ | held
    · simp [mergePod, hheld] at h
    · exact ⟨held, rfl⟩
  have hmerge : mergePod released pod (ledgerOf released spec pre)
      = mergeEntries held.rows (ledgerOf released spec pre) := by
    rw [mergePod, hheld]
    rfl
  obtain ⟨before, e, after, hsplit, he, hnone, hfst⟩ :=
    exists_split_of_conflict held.rows _ conflict (hmerge ▸ h)
  refine ⟨held, before, e, after, hheld, hsplit, he, hnone, ?_⟩
  have hacc := (mergeEntries_no_conflict_iff before _).mp hnone
  have hpod : (foldPod released (foldPods released pre ⟨initDesiredStatus spec, ∅, ∅⟩) pod).1
      = ⟨(mergeEntries before (ledgerOf released spec pre)).1,
          (foldPods released pre ⟨initDesiredStatus spec, ∅, ∅⟩).maps⟩ := by
    rw [foldPod_of_conflict h, ← hfst, ← hmerge]
    rfl
  constructor
  · intro hsame res dst hrow
    -- no Pod after this one: the two rebuilds are the profile pass over the two ledgers
    have heq := hsame []
    simp only [buildDesiredStatus, foldPods_append, foldPods_cons, hpod,
      foldPod_withoutRecord] at heq
    refine (hacc res dst hrow).leavesNoTrace_iff.mpr ?_
    refine columns_eq_of_foldPhysicalLedger_eq ?_ (aligned_ledgerOf released spec pre) heq res ?_
      hrow
    · exact Aligned.of_reworked (reworked_mergeEntries before _
        (reworked_foldPods released pre _ (DevicesStatus.Reworked.refl _)))
    · exact (row_mergeEntries_of_no_conflict hnone res).trans (by rw [hrow, Option.map_some])
  · intro htrace post
    have hledger : (mergeEntries before (ledgerOf released spec pre)).1
        = ledgerOf released spec pre := by
      refine DevicesStatus.Reworked.eq_of_row
        (reworked_mergeEntries before _ (DevicesStatus.Reworked.refl _))
        (DevicesStatus.Reworked.refl _) fun res => ?_
      rw [row_mergeEntries_of_no_conflict hnone]
      rcases hrow : (ledgerOf released spec pre).row res with _ | dst
      · rfl
      · rw [Option.map_some, (htrace res dst hrow).chargeRows_eq (hacc res dst hrow)]
    have hsame : (foldPod released (foldPods released pre ⟨initDesiredStatus spec, ∅, ∅⟩) pod).1
        = foldPods released pre ⟨initDesiredStatus spec, ∅, ∅⟩ := by
      rw [hpod, hledger]
      rfl
    simp only [buildDesiredStatus, foldPods_append, foldPods_cons, hsame, foldPod_withoutRecord]

/-! ### A conflict met late

Two cards, the second held exclusively.  A Pod that records a share of both charges the first and
meets the conflict on the second. -/

/-- Two whole cards of one group. -/
def pairOfCards : List DevicesGroup :=
  [{ id := "g", manufacturer := "nvidia", accelerators := [{ id := "x" }, { id := "y" }] }]

/-- The holder of the second card. -/
def exclusiveHolder : Pod :=
  { uid := "a"
    annotation := .recorded (AList.singleton "c" ⟨⟨[⟨"g", "nvidia",
      [{ id := "y", mode := .exclusive, allocated := resourceMaxUnits }]⟩]⟩, []⟩) }

/-- A share of both cards. -/
def sharerOfBoth : Pod :=
  { uid := "b"
    annotation := .recorded (AList.singleton "c" ⟨⟨[⟨"g", "nvidia",
      [{ id := "x", mode := .shared, allocated := 160000 },
        { id := "y", mode := .shared, allocated := 160000 }]⟩]⟩, []⟩) }

theorem rebuild_ignores_sharerOfBoth_iff :
    ∃ held before e after, heldStatusOf true sharerOfBoth = some held ∧
      held.rows = before ++ e :: after ∧ e.1 = ⟨"g", "y"⟩ ∧
      (mergeEntries before (ledgerOf true pairOfCards [exclusiveHolder])).2 = none ∧
      ((∀ post, (buildDesiredStatus true pairOfCards ([exclusiveHolder] ++ sharerOfBoth :: post)).1
          = (buildDesiredStatus true pairOfCards
              ([exclusiveHolder] ++ sharerOfBoth.withoutRecord :: post)).1) ↔
        ∀ res dst, (ledgerOf true pairOfCards [exclusiveHolder]).row res = some dst →
          LeavesNoTrace dst (entriesAt res before)) :=
  rebuild_ignores_conflicting_pod_iff
    (show (mergePod true sharerOfBoth (ledgerOf true pairOfCards [exclusiveHolder])).2
      = some ⟨⟨"g", "y"⟩, .exclusive, .shared⟩ by decide)

/-- **A Pod in conflict can change the ledger**: the first card stays charged. -/
theorem conflicting_pod_charges_first_card :
    ¬ ∀ (released : Bool) (spec : List DevicesGroup) (pre post : List Pod) (pod : Pod)
        (held : DevicesStatus) (e : Entry) (dst : AcceleratorAllocation),
        heldStatusOf released pod = some held → e ∈ held.rows →
        (ledgerOf released spec pre).row e.1 = some dst → conflicts e.2 dst = true →
        (buildDesiredStatus released spec (pre ++ pod :: post)).1
          = (buildDesiredStatus released spec (pre ++ pod.withoutRecord :: post)).1 := by
  intro h
  have hsame := h true pairOfCards [exclusiveHolder] [] sharerOfBoth
    ⟨[⟨"g", "nvidia", [{ id := "x", mode := .shared, allocated := 160000 },
      { id := "y", mode := .shared, allocated := 160000 }]⟩]⟩
    (⟨"g", "y"⟩, { id := "y", mode := .shared, allocated := 160000 })
    { id := "y", mode := .exclusive, remaining := 0 } (by decide) (by decide) (by decide)
    (by decide)
  revert hsame
  decide

end GpuStack
