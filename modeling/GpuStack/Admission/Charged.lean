import GpuStack.Admission.Promise
import GpuStack.DevicePlugin.LedgerConflict
import GpuStack.DevicePlugin.LedgerOrder

/-!
# Admission/Charged — the Pods the rebuilt ledger already holds

The node-devices check rebuilds the ledger of a node from the Pods bound to it, and counts from the
same list the Pods whose allocation that ledger holds (`podCharged`); those are not inflight any
more.  The two readings agree as long as nothing in the fold drops the Pod: what a charged Pod still
holds is in the rebuilt ledger, card by card (`charged_pod_in_ledger`).

What a Ready verdict grants on such a ledger fits beside what the Pods hold
(`granted_beside_held_fits`).
-/

namespace GpuStack

/-! ## Which Pods count as charged -/

/-- The name is the card key of an accelerator family, whose value is the card count. -/
def isCardKey : ResourceName → Bool
  | .exclusive _ | .shared _ | .sliced _ | .partitioned _ => true
  | _ => false

/-- Limits and requests of a container, requests taking precedence. -/
def mergedContainerResources (ctr : Container) : ResourceList :=
  if ctr.limits.keys = [] then ctr.requests else ctr.requests ∪ ctr.limits

/-- The container asks for a card of any accelerator family. -/
def requestsCard (ctr : Container) : Bool :=
  (mergedContainerResources ctr).entries.any fun e => isCardKey e.1 && 0 < e.2

/-- **The Pod is charged**: its record is readable and holds every container that asks for a card. -/
def podCharged (pod : Pod) : Bool :=
  match allocatedAcceleratorsOf pod with
  | none => false
  | some allocations => allocations.keys ≠ [] &&
      (pod.initContainers ++ pod.containers).all fun ctr =>
        !requestsCard ctr || (allocations.lookup ctr.name).isSome

theorem exists_heldStatusOf_of_podCharged (released : Bool) {pod : Pod}
    (h : podCharged pod = true) : ∃ held, heldStatusOf released pod = some held := by
  rcases hrecord : allocatedAcceleratorsOf pod with _ | allocations
  · simp [podCharged, hrecord] at h
  · exact ⟨_, by rw [heldStatusOf, allocatedStatusOf, hrecord]; rfl⟩

/-! ## What the fold keeps -/

/-- A walk does not change the mode of a held row. -/
theorem mode_mergeEntries_of_held {res : Resource} :
    ∀ (es : List Entry) {st : DevicesStatus} {dst : AcceleratorAllocation},
      st.row res = some dst → dst.mode ≠ .none →
      ∃ dst', (mergeEntries es st).1.row res = some dst' ∧ dst'.mode = dst.mode
  | [], _, dst, hrow, _ => ⟨dst, hrow, rfl⟩
  | e :: es, st, dst, hrow, hheld => by
    rcases he : st.row e.1 with _ | d
    · rw [mergeEntries_absent he]
      exact mode_mergeEntries_of_held es hrow hheld
    · rcases hc : conflicts e.2 d with _ | _
      · rw [mergeEntries_charge he hc]
        have hcharged := row_charge st e.2 e.1 res
        by_cases hres : res = e.1
        · subst hres
          obtain rfl : dst = d := Option.some.inj (hrow.symm.trans he)
          have hmode : e.2.mode = dst.mode := by
            simp only [conflicts, Bool.and_eq_false_iff, decide_eq_false_iff_not, not_not,
              ne_eq] at hc
            exact (hc.resolve_left hheld).symm
          rw [if_pos rfl, hrow, Option.map_some] at hcharged
          obtain ⟨dst', hrow', hmode'⟩ := mode_mergeEntries_of_held es hcharged
            (show (chargeRow e.2 dst).mode ≠ .none from hmode ▸ hheld)
          exact ⟨dst', hrow', hmode'.trans hmode⟩
        · rw [if_neg hres, hrow] at hcharged
          exact mode_mergeEntries_of_held es hcharged hheld
      · rw [mergeEntries_conflict he hc]
        exact ⟨dst, hrow, rfl⟩

/-- Nor do the Pods folded after it. -/
theorem mode_foldPods_of_held (released : Bool) {res : Resource} (pods : List Pod)
    {st : FoldState} {dst : AcceleratorAllocation} (hrow : st.status.row res = some dst)
    (hheld : dst.mode ≠ .none) :
    ∃ dst', (foldPods released pods st).status.row res = some dst' ∧ dst'.mode = dst.mode := by
  induction pods generalizing st dst with
  | nil => exact ⟨dst, hrow, rfl⟩
  | cons pod pods ih =>
    obtain ⟨d, hd, hmode⟩ : ∃ d, (foldPod released st pod).1.status.row res = some d ∧
        d.mode = dst.mode := by
      rw [status_foldPod, mergePod]
      rcases heldStatusOf released pod with _ | held
      · exact ⟨dst, hrow, rfl⟩
      · exact mode_mergeEntries_of_held held.rows hrow hheld
    obtain ⟨d', hd', hmode'⟩ := ih hd (hmode ▸ hheld)
    exact ⟨d', by rw [foldPods_cons]; exact hd', hmode'.trans hmode⟩

/-- The units the Pods take of a card, one charge after another. -/
def chargedUnits (released : Bool) (spec : List DevicesGroup) (pods : List Pod) (res : Resource) :
    List ℤ :=
  (entriesAt res (podCharges released pods (initDesiredStatus spec)).flatten).map (·.allocated)

theorem podCharges_append (released : Bool) (pre post : List Pod) (st : FoldState) :
    podCharges released (pre ++ post) st.status = podCharges released pre st.status ++
      podCharges released post (foldPods released pre st).status := by
  induction pre generalizing st with
  | nil => rfl
  | cons pod pre ih =>
    rw [List.cons_append, podCharges, podCharges, List.cons_append, ← status_foldPod, ih,
      foldPods_cons]

/-- **What a charged Pod holds is in the rebuilt ledger**: unless its merge met a conflict, every card
of the inventory that its held record names carries the recorded mode, and all the units the record
takes there are among those taken out of the card's remaining units. -/
theorem charged_pod_in_ledger {released : Bool} {spec : List DevicesGroup} {pre post : List Pod}
    {pod : Pod} (hcharged : podCharged pod = true)
    (hclean : (mergePod released pod (ledgerOf released spec pre)).2 = none) :
    ∃ held, heldStatusOf released pod = some held ∧
      ∀ res acc, (res, acc) ∈ held.rows → res ∈ specResources spec →
        ∃ row, (buildDesiredStatus released spec (pre ++ pod :: post)).1.row res = some row ∧
          (acc.mode ≠ .none → row.mode = acc.mode) ∧
          row.remaining = unitsLeft (chargedUnits released spec (pre ++ pod :: post) res)
            resourceMaxUnits ∧
          ∃ rest, chargedUnits released spec (pre ++ pod :: post) res =
            chargedUnits released spec pre res ++
              (entriesAt res held.rows).map (·.allocated) ++ rest := by
  obtain ⟨held, hheld⟩ := exists_heldStatusOf_of_podCharged released hcharged
  refine ⟨held, hheld, fun res acc hmem hin => ?_⟩
  set seed : FoldState := ⟨initDesiredStatus spec, ∅, ∅⟩ with hseed
  obtain ⟨dst, hdst⟩ := exists_seed_row hin
  -- the row before the Pod, and after it
  have hbefore : (ledgerOf released spec pre).row res = some (chargeRows (entriesAt res
      (podCharges released pre (initDesiredStatus spec)).flatten) dst) := by
    rw [ledgerOf, row_foldPods, hdst, Option.map_some]
  have hwalk : (mergeEntries held.rows (ledgerOf released spec pre)).2 = none := by
    rwa [mergePod, hheld] at hclean
  have hafter : (foldPod released (foldPods released pre seed) pod).1.status.row res
      = some (chargeRows (entriesAt res held.rows) (chargeRows (entriesAt res
          (podCharges released pre (initDesiredStatus spec)).flatten) dst)) := by
    rw [status_foldPod, mergePod, hheld]
    exact (row_mergeEntries_of_no_conflict hwalk res).trans (by rw [hbefore, Option.map_some])
  have hfinal := row_foldPods released res (pre ++ pod :: post) seed
  rw [hdst, Option.map_some] at hfinal
  obtain ⟨f, hf, hrow⟩ := row_foldPhysicalLedger spec
    (foldPods released (pre ++ pod :: post) seed).maps res
  have hrebuilt := hrow _ (aligned_ledgerOf released spec (pre ++ pod :: post))
  rw [ledgerOf, hfinal, Option.map_some] at hrebuilt
  refine ⟨_, hrebuilt, fun hmode => ?_, ?_, ?_⟩
  · have hheldMode := ((mergeEntries_no_conflict_iff held.rows _).mp hwalk res _ hbefore).mode_of_mem
      hmode (mem_entriesAt.mpr hmem)
    obtain ⟨dst', hrow', hmode'⟩ := mode_foldPods_of_held released post hafter
      (hheldMode ▸ hmode)
    rw [← foldPods_cons, ← foldPods_append, hfinal] at hrow'
    rw [(hf _).1, Option.some.inj hrow', hmode', hheldMode]
  · rw [(hf _).2.1, remaining_chargeRows, (row_initDesiredStatus hdst).2.1]
    rfl
  · have hsplit := podCharges_append released pre (pod :: post) seed
    have hmine : chargesOfPod released pod (foldPods released pre seed).status
        = chargesOf held.rows (ledgerOf released spec pre) := by
      rw [chargesOfPod, hheld]
      rfl
    rw [podCharges, hmine] at hsplit
    rw [chargedUnits, hsplit, List.flatten_append, List.flatten_cons, entriesAt_append,
      entriesAt_append, entriesAt_chargesOf_of_no_conflict hwalk (by rw [hbefore]; rfl),
      List.map_append, List.map_append, ← List.append_assoc]
    exact ⟨_, rfl⟩

/-- A Pod whose one container asked for a card and was given it whole. -/
def wholeCardPod (phase : PodPhase) : Pod :=
  { uid := "a"
    phase := phase
    annotation := .recorded (AList.singleton "c" ⟨⟨[⟨"g", "nvidia",
      [{ id := "x", mode := .exclusive, allocated := 1600000 }]⟩]⟩, []⟩)
    containers := [{ name := "c", limits := AList.singleton (.exclusive "nvidia.com/gpu") 1 }] }

/-- A running Pod's card, beside a sharer that conflicts with it. -/
theorem running_pod_in_ledger :
    ∃ held, heldStatusOf true (wholeCardPod .running) = some held ∧
      ∀ res acc, (res, acc) ∈ held.rows → res ∈ specResources oneCard →
        ∃ row, (buildDesiredStatus true oneCard ([] ++ wholeCardPod .running :: [sharer "b"])).1.row
            res = some row ∧
          (acc.mode ≠ .none → row.mode = acc.mode) ∧
          row.remaining = unitsLeft (chargedUnits true oneCard
            ([] ++ wholeCardPod .running :: [sharer "b"]) res) resourceMaxUnits ∧
          ∃ rest, chargedUnits true oneCard ([] ++ wholeCardPod .running :: [sharer "b"]) res =
            chargedUnits true oneCard [] res ++
              (entriesAt res held.rows).map (·.allocated) ++ rest :=
  charged_pod_in_ledger (by decide) (by decide)

/-- **A finished Pod counts as charged, but its card is free in the rebuilt ledger.** -/
theorem finished_pod_not_in_ledger :
    podCharged (wholeCardPod .succeeded) = true ∧
    (allocatedStatusOf (wholeCardPod .succeeded)).map (·.rows) =
      some [(⟨"g", "x"⟩, { id := "x", mode := .exclusive, allocated := 1600000 })] ∧
    (buildDesiredStatus true oneCard [wholeCardPod .succeeded]).1.row ⟨"g", "x"⟩ =
      some { id := "x", mode := .none, remaining := 1600000 } := by
  decide +kernel

/-! ## What a Ready verdict adds to what is held -/

/-- The ledger of the node is rebuilt from these Pods, every record of which can be read. -/
structure ScopedDevices.RebuiltFrom (sd : ScopedDevices) (released : Bool) (pods : List Pod) :
    Prop where
  rebuilt : sd.devices.status = (buildDesiredStatus released sd.devices.spec pods).1
  distinct : (specResources sd.devices.spec).Nodup
  readable : ∀ pod ∈ pods, (allocatedAcceleratorsOf pod).isSome
  nonneg : ∀ e ∈ heldEntries released pods, 0 ≤ e.2.allocated
  oneMode : OneMode (heldEntries released pods)

/-- The ledger rows of the pool, in the order of its cards. -/
def cardRows (pool : List ScopedDevices) : List (ScopedDevices × Entry) :=
  pool.flatMap fun sd => sd.devices.status.rows.map (sd, ·)

theorem remaining_collectCards (pool : List ScopedDevices) :
    (collectCards pool).map (·.remaining) = (cardRows pool).map (·.2.2.remaining) := by
  simp only [collectCards, nodeCards, cardRows, DevicesStatus.rows, List.map_flatMap, List.map_map,
    Function.comp_def]

/-- The units a load takes of a card. -/
def Load.taken (l : Load) : ℤ :=
  l.wholes * resourceMaxUnits + l.shares * (resourceMaxUnits / sharedResourceMaxSize) + l.units

/-- A card gives away no more than it has left. -/
theorem CardLedger.Holds.taken_le {c : CardLedger} {l : Load} (h : c.Holds l)
    (hunits : l.slices = 0 → l.units = 0) (hleft : 0 ≤ c.remaining) :
    0 ≤ l.taken ∧ l.taken ≤ c.remaining := by
  have hshares : c.freeShares * 160000 ≤ c.remaining := by
    unfold CardLedger.freeShares
    split
    · omega
    · rw [Int.tdiv_eq_ediv_of_nonneg hleft, resourceMaxUnits, sharedResourceMaxSize]
      omega
  obtain ⟨hw, hs, hu⟩ := h
  simp only [Load.taken, resourceMaxUnits, sharedResourceMaxSize] at hw ⊢
  omega

/-- **What is granted and what is held fit on the card together**: a Ready verdict on a ledger rebuilt
from the Pods of each node is backed by a placement that takes of no card more than the Pods on its
node leave of it. -/
theorem granted_beside_held_fits {released : Bool} {pool : List ScopedDevices}
    {pods : ScopedDevices → List Pod} {demands : List FamilyDemand}
    (hpool : ∀ sd ∈ pool, sd.RebuiltFrom released (pods sd))
    (hfamily : ∀ d ∈ demands, d.family ≠ .partitioned)
    (hready : (nodeDevicesFeasibility pool [] demands).1 = .ready) :
    ∃ gs, List.Forall₂ (Serves (collectCards pool).get
        fun i => ((collectCards pool).get i).hostname) demands gs ∧
      ∀ i, ∃ sd e, (cardRows pool)[i.val]? = some (sd, e) ∧ sd ∈ pool ∧
        ((totalLoad demands gs i).taken = 0 ∨ (totalLoad demands gs i).taken +
          ((entriesAt e.1 (heldEntries released (pods sd))).map (·.allocated)).sum
            ≤ resourceMaxUnits) := by
  obtain ⟨gs, hserve, hholds⟩ := placeable_of_ready separates_hostname hfamily hready
  refine ⟨gs, hserve, fun i => ?_⟩
  obtain ⟨⟨sd, e⟩, hat, hleft⟩ : ∃ row, (cardRows pool)[i.val]? = some row ∧
      row.2.2.remaining = ((collectCards pool).get i).remaining := by
    have h := congrArg (·[i.val]?) (remaining_collectCards pool)
    simp only [List.getElem?_map, List.getElem?_eq_getElem i.isLt, Option.map_some] at h
    exact Option.map_eq_some_iff.mp h.symm
  obtain ⟨sd', hsd, hrow⟩ := List.mem_flatMap.mp (List.mem_of_getElem? hat)
  obtain ⟨e', he, heq⟩ := List.mem_map.mp hrow
  cases heq
  obtain ⟨hstatus, hdistinct, hread, hnonneg, hmode⟩ := hpool sd hsd
  rw [hstatus, buildDesiredStatus_eq_walk hread hmode] at he
  have hheld := remaining_of_walk hdistinct hnonneg (hmode.clean _) he
  rw [hheld] at hleft
  have htaken := (hholds i).taken_le (units_eq_zero_of_slices_eq_zero i)
    (hleft ▸ le_max_left _ _)
  exact ⟨sd, e, hat, hsd, by omega⟩

/-- A node whose one card a Pod shares. -/
def sharedNode : ScopedDevices :=
  ⟨⟨oneCard, (buildDesiredStatus true oneCard [sharer "a"]).1⟩, [⟨"f", "nvidia-g", 0⟩], "h"⟩

/-- Another share is asked for and can be placed. -/
theorem share_beside_sharer : ∃ gs, List.Forall₂ (Serves (collectCards [sharedNode]).get
    fun i => ((collectCards [sharedNode]).get i).hostname)
      [{ family := .shared, cards := 1, flavor := "f", sharedNeeds := [⟨1, 1⟩] }] gs :=
  (@granted_beside_held_fits true [sharedNode] (fun _ => [sharer "a"]) _
    (List.forall_mem_singleton.mpr
      ⟨rfl, by decide, by decide, by decide, by unfold OneMode; decide⟩)
    (by decide) (by decide +kernel)).imp fun _ h => h.1

end GpuStack
