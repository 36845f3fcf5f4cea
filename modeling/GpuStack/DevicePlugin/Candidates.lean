import GpuStack.DevicePlugin.Allocate

/-!
# DevicePlugin/Candidates — the container a call is resolved to

kubelet does not say which container an Allocate is for.  The pending containers that ask for exactly
what the call offers are its candidates, in one list, oldest Pod first (`allocatingCandidates`); the
three ranks are three parts of that list (`classifyAllocatingCandidates_eq`), and the call is resolved
to the first of the first rank that has any.

A sliced refusal judges the container the call was resolved to.  Of the other candidates it says only
what the ranking tested: a container that holds a reservation is not tested, and one without a unit
budget ranks as feasible untested.
-/

namespace GpuStack

open List

/-! ## The ranks -/

/-- The container asks for exactly what the call offers. -/
def AllocationMatch.requestedBy (m : AllocationMatch) (ctr : Container) : Bool :=
  ctr.limits.lookup m.resourceName = some m.quantity

/-- The candidates of a call. -/
def allocatingCandidates (m : AllocationMatch) (pods : List Pod) : List (Pod × Container) :=
  pods.flatMap fun pod =>
    if pod.phase = .unset ∨ pod.phase = .pending then
      ((pod.initContainers ++ pod.containers).filter m.requestedBy).map (pod, ·)
    else []

/-- The container holds a reservation. -/
def DevicesReconciler.reserved (r : DevicesReconciler) (c : Pod × Container) : Bool :=
  (r.reservedDevices c.1.uid c.2.name).isSome

/-- The container passes the feasibility test, if there is one. -/
def AllocationMatch.passes (m : AllocationMatch) (c : Pod × Container) : Bool :=
  m.feasible.all (· c.1 c.2)

/-- The parts of a list of candidates, by rank. -/
def AllocatingCandidates.ofList (r : DevicesReconciler) (m : AllocationMatch)
    (cs : List (Pod × Container)) : AllocatingCandidates where
  feasible := cs.filter fun c => !r.reserved c && m.passes c
  infeasible := cs.filter fun c => !r.reserved c && !m.passes c
  claimed := cs.filter r.reserved

variable (r : DevicesReconciler) (m : AllocationMatch)

theorem classifyContainer_ofList (pod : Pod) (cs : List (Pod × Container)) (ctr : Container) :
    classifyContainer r m pod (.ofList r m cs) ctr
      = .ofList r m (cs ++ if m.requestedBy ctr then [(pod, ctr)] else []) := by
  unfold classifyContainer
  by_cases hreq : m.requestedBy ctr = true
  · have hask : ctr.limits.lookup m.resourceName = some m.quantity := of_decide_eq_true hreq
    rw [if_neg (not_not.mpr hask), if_pos hreq]
    split
    · rename_i hres
      have hreserved : r.reserved (pod, ctr) = true := hres
      simp [AllocatingCandidates.ofList, hreserved]
    · rename_i hres
      have hreserved : r.reserved (pod, ctr) = false := Bool.eq_false_of_not_eq_true hres
      split
      · rename_i hpass
        have hpasses : m.passes (pod, ctr) = true := hpass
        simp [AllocatingCandidates.ofList, hreserved, hpasses]
      · rename_i hpass
        have hpasses : m.passes (pod, ctr) = false := Bool.eq_false_of_not_eq_true hpass
        simp [AllocatingCandidates.ofList, hreserved, hpasses]
  · have hask : ctr.limits.lookup m.resourceName ≠ some m.quantity := fun h =>
      hreq (decide_eq_true h)
    rw [if_pos hask, if_neg hreq, append_nil]

theorem foldl_classifyContainer_ofList (pod : Pod) (ctrs : List Container)
    (cs : List (Pod × Container)) :
    ctrs.foldl (classifyContainer r m pod) (.ofList r m cs)
      = .ofList r m (cs ++ (ctrs.filter m.requestedBy).map (pod, ·)) := by
  induction ctrs generalizing cs with
  | nil => simp
  | cons ctr ctrs ih =>
    rw [foldl_cons, classifyContainer_ofList, ih, append_assoc]
    by_cases hreq : m.requestedBy ctr = true <;> simp [hreq]

/-- **The ranks are three parts of the list of candidates.** -/
theorem classifyAllocatingCandidates_eq (pods : List Pod) :
    classifyAllocatingCandidates r m pods = .ofList r m (allocatingCandidates m pods) := by
  suffices ∀ cs, pods.foldl (classifyPod r m) (.ofList r m cs)
      = .ofList r m (cs ++ allocatingCandidates m pods) from this []
  induction pods with
  | nil => simp [allocatingCandidates]
  | cons pod pods ih =>
    intro cs
    have hpod : classifyPod r m (.ofList r m cs) pod
        = .ofList r m (cs ++ allocatingCandidates m [pod]) := by
      unfold classifyPod
      split
      · rename_i hphase
        simp [foldl_classifyContainer_ofList, allocatingCandidates, hphase]
      · rename_i hphase
        simp [allocatingCandidates, hphase]
    rw [foldl_cons, hpod, ih, append_assoc]
    simp [allocatingCandidates]

variable {r m}

variable {c : Pod × Container} {pods : List Pod}

theorem mem_allocatingCandidates :
    c ∈ allocatingCandidates m pods ↔ c.1 ∈ pods ∧ (c.1.phase = .unset ∨ c.1.phase = .pending) ∧
      c.2 ∈ c.1.initContainers ++ c.1.containers ∧ m.requestedBy c.2 = true := by
  obtain ⟨pod, ctr⟩ := c
  simp only [allocatingCandidates, mem_flatMap]
  constructor
  · rintro ⟨pod', hpod, hmem⟩
    split at hmem
    · rename_i hphase
      obtain ⟨ctr', hctr, heq⟩ := mem_map.mp hmem
      obtain ⟨rfl, rfl⟩ := Prod.mk.inj heq
      exact ⟨hpod, hphase, mem_filter.mp hctr⟩
    · exact nomatch hmem
  · rintro ⟨hpod, hphase, hctr⟩
    exact ⟨pod, hpod, by rw [if_pos hphase]; exact mem_map_of_mem (mem_filter.mpr hctr)⟩

/-- kubelet, if it was asked, reports the container as waiting. -/
def AllocationMatch.waiting (m : AllocationMatch) (c : Pod × Container) : Bool :=
  m.kubelet.all (· c.1 c.2)

/-- **The container a call is resolved to**: a candidate that waits, without a reservation if there
is any such, and feasible if any candidate without a reservation is. -/
structure Resolved (r : DevicesReconciler) (m : AllocationMatch) (pods : List Pod)
    (c : Pod × Container) : Prop where
  mem : c ∈ allocatingCandidates m pods
  waiting : m.waiting c = true
  unreserved_first : r.reserved c = true →
    ∀ c' ∈ allocatingCandidates m pods, m.waiting c' = true → r.reserved c' = true
  feasible_first : r.reserved c = true ∨ m.passes c = false →
    ∀ c' ∈ allocatingCandidates m pods, m.waiting c' = true → r.reserved c' = false →
      m.passes c' = false

theorem narrowToKubeletPending_eq (tiers : AllocatingCandidates) :
    narrowToKubeletPending m tiers
      = ⟨tiers.feasible.filter m.waiting, tiers.infeasible.filter m.waiting,
          tiers.claimed.filter m.waiting⟩ := by
  unfold narrowToKubeletPending AllocationMatch.waiting
  cases m.kubelet with
  | none => simp
  | some waits => rfl

/-- The first of two lists, or of the second once the first is empty. -/
theorem mem_or_of_head?_append {α : Type*} {l l' : List α} {a : α}
    (h : (l ++ l').head? = some a) : a ∈ l ∨ l = [] ∧ l'.head? = some a := by
  cases l with
  | nil => exact .inr ⟨rfl, h⟩
  | cons b l =>
    obtain rfl := Option.some.inj h
    exact .inl (.head _)

theorem Resolved.of_rank {cs : List (Pod × Container)}
    (hcs : ∀ c, c ∈ cs ↔ c ∈ allocatingCandidates m pods)
    (h : rankAllocatingCandidate (narrowToKubeletPending m (.ofList r m cs)) = some c) :
    Resolved r m pods c := by
  rw [narrowToKubeletPending_eq, rankAllocatingCandidate, append_assoc] at h
  simp only [AllocatingCandidates.ofList, filter_filter] at h
  obtain hfeas | ⟨hnone, h⟩ := mem_or_of_head?_append h
  · -- feasible, without a reservation: nothing is passed over
    obtain ⟨hmem, hc⟩ := mem_filter.mp hfeas
    simp only [Bool.and_eq_true, Bool.not_eq_true'] at hc
    obtain ⟨hwait, hunres, hpass⟩ := hc
    exact ⟨(hcs c).mp hmem, hwait, fun hres => absurd hres (by simp [hunres]),
      fun hno => absurd hno (by simp [hunres, hpass])⟩
  -- no candidate is feasible without a reservation
  have hfirst : ∀ c' ∈ allocatingCandidates m pods, m.waiting c' = true →
      r.reserved c' = false → m.passes c' = false := fun c' hc' hwait hunres => by
    have hout := filter_eq_nil_iff.mp hnone c' ((hcs c').mpr hc')
    simpa [hwait, hunres] using hout
  obtain hinf | ⟨hnone', h⟩ := mem_or_of_head?_append h
  · obtain ⟨hmem, hc⟩ := mem_filter.mp hinf
    simp only [Bool.and_eq_true, Bool.not_eq_true'] at hc
    obtain ⟨hwait, hunres, -⟩ := hc
    exact ⟨(hcs c).mp hmem, hwait, fun hres => absurd hres (by simp [hunres]), fun _ => hfirst⟩
  · obtain ⟨hmem, hc⟩ := mem_filter.mp (mem_of_mem_head? h)
    refine ⟨(hcs c).mp hmem, (Bool.and_eq_true_iff.mp hc).1, fun _ c' hc' hwait => ?_,
      fun _ => hfirst⟩
    by_contra hunres
    have hout := filter_eq_nil_iff.mp hnone' c' ((hcs c').mpr hc')
    simp [hwait, Bool.eq_false_of_not_eq_true hunres,
      hfirst c' hc' hwait (Bool.eq_false_of_not_eq_true hunres)] at hout

theorem getAllocatingPod_resolved
    (h : getAllocatingPod r pods m = .ok c) : Resolved r m pods c := by
  unfold getAllocatingPod at h
  split at h
  · cases h
  · dsimp only at h
    rw [classifyAllocatingCandidates_eq] at h
    split at h
    · rename_i c' hrank
      obtain rfl := Except.ok.inj h
      refine .of_rank (fun c => ?_) hrank
      rw [mem_allocatingCandidates, mem_allocatingCandidates, mem_insertionSort]
    · cases h

/-! ## A sliced refusal -/

section Refusal

variable (sw : Switches) (s : ResourceServer) (r : DevicesReconciler) (snap : Snapshot)
  (tokens : List ResourceToken)

/-- What a call of the server offers, the test it ranks by, and what kubelet reports. -/
def ResourceServer.allocationMatch (kubelet : Option (Pod → Container → Bool)) :
    AllocationMatch where
  resourceName := s.resourceName
  quantity := tokens.length
  feasible := candidateFeasible sw s r snap (ResourceServer.groupTokens tokens)
  kubelet := kubelet

/-- The room a container is judged in, its own record left out. -/
def roomOf (c : Pod × Container) : SlicedRoom :=
  ⟨snap.devices, some (slicedOccupancy sw.terminatedPodsReleased r snap.pods), ⟨c.1.uid, c.2.name⟩⟩

/-- Some card that is offered has no room for the container's slice. -/
def ShortOfRoom (c : Pod × Container) : Prop :=
  ∃ res ∈ (ResourceServer.groupTokens tokens).keys,
    (roomOf sw r snap c).shortage res (unitsCharged (s.requestedUnits c.2).1
      (((ResourceServer.groupTokens tokens).lookup res).getD []).length) ≠ none

/-- The ranking says nothing of the container's room: it holds a reservation, or a container that
holds none carries no unit budget and so ranks as feasible. -/
def Untested (c : Pod × Container) : Prop :=
  r.reserved c = true ∨ ∃ c' ∈ allocatingCandidates (s.allocationMatch sw r snap tokens none) snap.pods,
    r.reserved c' = false ∧ (s.requestedUnits c'.2).2 = false

variable {sw s r snap tokens}

theorem slicedOccupancyForAllocate_of_gate (hmode : s.allocationMode = .sliced)
    (hgate : sw.slicedAllocateGateOff = false) :
    slicedOccupancyForAllocate sw s r snap
      = some (slicedOccupancy sw.terminatedPodsReleased r snap.pods) := by
  simp [slicedOccupancyForAllocate, hmode, hgate]

/-- The test of a container with a unit budget is its room; one without is not tested. -/
theorem passes_of_sliced (hmode : s.allocationMode = .sliced)
    (hgate : sw.slicedAllocateGateOff = false) (c : Pod × Container) :
    (s.allocationMatch sw r snap tokens none).passes c = true ↔
      (s.requestedUnits c.2).2 = false ∨ ¬ ShortOfRoom sw s r snap tokens c := by
  have hunits : s.unitsResourceName = some (.slicedUnits s.base) := by
    simp [ResourceServer.unitsResourceName, hmode]
  simp only [AllocationMatch.passes, ResourceServer.allocationMatch, candidateFeasible, hmode,
    Option.all_some, slicedOccupancyForAllocate_of_gate hmode hgate, ShortOfRoom, roomOf,
    ResourceServer.requestedUnits, hunits, Option.bind_some]
  cases c.2.limits.lookup (.slicedUnits s.base) with
  | none => simp
  | some q =>
    by_cases hq : 0 < q
    · simp [hq, not_le.mpr hq]
    · simp [hq, not_lt.mp hq]

theorem refuseOn_eq_error {e : Option AllocateError} {e' : AllocateError} :
    refuseOn e = .error e' ↔ e = some e' := by
  cases e with
  | none => simp [refuseOn]
  | some e => simp [refuseOn]

/-- Only the sliced gate refuses for want of room. -/
theorem getAllocatingPod_error {m : AllocationMatch} {pods : List Pod} {e : AllocateError}
    (h : getAllocatingPod r pods m = .error e) :
    e = .noPods ∨ e = .noAllocatingPod m.resourceName m.quantity := by
  unfold getAllocatingPod at h
  split at h
  · exact .inl (Except.error.inj h).symm
  · dsimp only at h
    split at h
    · cases h
    · exact .inr (Except.error.inj h).symm

theorem chooseCards_of_sliced (hmode : s.allocationMode = .sliced) (pod : Pod) (ctr : Container) :
    chooseCards s r snap pod ctr tokens
      = .ok ⟨⟨ResourceServer.groupTokens tokens, ∅⟩, (s.requestedUnits ctr).1, ""⟩ := by
  simp [chooseCards, hmode]

theorem placeLogicalSlice_error {placer : Option LogicalPlacer} {pod : Pod} {ctr : Container}
    {status : DevicesStatus} {e : AllocateError}
    (h : placeLogicalSlice sw s r snap placer pod ctr status = .error e) :
    e = .placeLogicalSlice := by
  unfold placeLogicalSlice at h
  split at h
  · cases h
  · split at h
    · cases h
    · split at h
      · cases h
      · split at h
        · cases h
        · exact (Except.error.inj h).symm

/-- The gate refuses exactly a container that is short of room. -/
theorem shortOfRoom_of_refusal (hmode : s.allocationMode = .sliced)
    (hgate : sw.slicedAllocateGateOff = false) {pod : Pod} {ctr : Container} {res : Resource}
    {why : Shortage}
    (h : refusal sw s r snap pod ctr
      ⟨⟨ResourceServer.groupTokens tokens, ∅⟩, (s.requestedUnits ctr).1, ""⟩
        = some (.slicedOvercommit res why)) :
    ShortOfRoom sw s r snap tokens (pod, ctr) := by
  unfold refusal at h
  split at h
  · cases Option.some.inj h
  · rw [slicedOccupancyForAllocate_of_gate hmode hgate] at h
    obtain ⟨⟨res', why'⟩, hover, -⟩ := Option.map_eq_some_iff.mp h
    obtain ⟨card, hcard, hshort⟩ := exists_of_findSome?_eq_some hover
    obtain ⟨shortage, hshortage, -⟩ := Option.map_eq_some_iff.mp hshort
    refine ⟨card, (mem_insertionSort _).mp hcard, ?_⟩
    rw [roomOf, hshortage]
    exact Option.some_ne_none _

/-- A refusal of the sliced gate is about the container the call was resolved to. -/
theorem resolved_of_slicedOvercommit {placer : Option LogicalPlacer} {deviceIDs : List String}
    {res : Resource} {why : Shortage} (hmode : s.allocationMode = .sliced)
    (hgate : sw.slicedAllocateGateOff = false)
    (h : decideAllocation sw s r snap placer none tokens deviceIDs
      = .error (.slicedOvercommit res why)) :
    ∃ c, Resolved r (s.allocationMatch sw r snap tokens none) snap.pods c ∧
      ShortOfRoom sw s r snap tokens c := by
  unfold decideAllocation at h
  obtain h | ⟨_, -, h⟩ := Scan.bind_eq_error.mp h
  · simp [refuseOn_eq_error] at h
  obtain h | ⟨⟨pod, ctr⟩, hc, h⟩ := Scan.bind_eq_error.mp h
  · obtain h | h := getAllocatingPod_error h <;> cases h
  dsimp only at h
  obtain h | ⟨_, -, h⟩ := Scan.bind_eq_error.mp h
  · simp [refuseOn_eq_error] at h
  rw [chooseCards_of_sliced hmode] at h
  obtain h | ⟨chosen, hchosen, h⟩ := Scan.bind_eq_error.mp h
  · cases h
  obtain rfl := Except.ok.inj hchosen
  obtain h | ⟨_, -, h⟩ := Scan.bind_eq_error.mp h
  · exact ⟨(pod, ctr), getAllocatingPod_resolved hc,
      shortOfRoom_of_refusal hmode hgate (refuseOn_eq_error.mp h)⟩
  obtain h | ⟨_, -, h⟩ := Scan.bind_eq_error.mp h
  · cases placeLogicalSlice_error h
  · cases h

/-- **A sliced refusal is no wrong pick exactly when every candidate it did not test is short of room
too.** -/
theorem sliced_refusal_no_wrong_pick_iff {placer : Option LogicalPlacer} {deviceIDs : List String}
    {res : Resource} {why : Shortage} (hmode : s.allocationMode = .sliced)
    (hgate : sw.slicedAllocateGateOff = false)
    (h : decideAllocation sw s r snap placer none tokens deviceIDs
      = .error (.slicedOvercommit res why)) :
    (∀ c ∈ allocatingCandidates (s.allocationMatch sw r snap tokens none) snap.pods,
      ShortOfRoom sw s r snap tokens c) ↔
      ∀ c ∈ allocatingCandidates (s.allocationMatch sw r snap tokens none) snap.pods,
        Untested sw s r snap tokens c → ShortOfRoom sw s r snap tokens c := by
  obtain ⟨w, hw, hshort⟩ := resolved_of_slicedOvercommit hmode hgate h
  refine ⟨fun hall c hc _ => hall c hc, fun hun c hc => ?_⟩
  by_contra hfits
  have htested : ¬ Untested sw s r snap tokens c := fun hc' => hfits (hun c hc hc')
  obtain ⟨hunres, hshaped⟩ := not_or.mp htested
  -- every candidate without a reservation carries a budget, the one the call was resolved to included
  have hpasses : (s.allocationMatch sw r snap tokens none).passes c = true :=
    (passes_of_sliced hmode hgate c).mpr (.inr hfits)
  have hwfails : r.reserved w = true ∨ (s.allocationMatch sw r snap tokens none).passes w = false := by
    by_contra hno
    obtain ⟨hwres, hwpass⟩ := not_or.mp hno
    obtain hbudget | hwfits := (passes_of_sliced hmode hgate w).mp (by simpa using hwpass)
    · exact hshaped ⟨w, hw.mem, Bool.eq_false_of_not_eq_true hwres, hbudget⟩
    · exact hwfits hshort
  have hfails := hw.feasible_first hwfails c hc rfl (Bool.eq_false_of_not_eq_true hunres)
  rw [hpasses] at hfails
  cases hfails

end Refusal

/-! ### A repeated call beside a newcomer -/

/-- A server of logical slices, and the one card it has. -/
def slicer : ResourceServer := ⟨"nvidia", "nvidia", .sliced⟩

def sliceableCard : List DevicesGroup :=
  [{ id := "g", manufacturer := "nvidia",
     accelerators := [{ id := "x", status := { logicalSliced := ⟨8⟩ } }] }]

/-- A Pod that asks for a slice of a whole card. -/
def wholeSlicePod (uid : String) (creationTimestamp : ℤ) (phase : PodPhase) : Pod :=
  { uid, creationTimestamp, phase
    containers := [{ name := "c", limits :=
      (AList.singleton (.sliced "nvidia") 1).insert (.slicedUnits "nvidia") 1600000 }] }

/-- Pod `a` holds the slice by a reservation. -/
def sliceReserved : DevicesReconciler where
  reservations := AList.singleton ⟨"a", "c"⟩ ⟨⟨⟨[⟨"g", "nvidia",
    [{ id := "x", mode := .sliced, allocated := 1600000 }]⟩]⟩, ["g:x:0"]⟩, by simp⟩

/-- Pod `a` in some phase, and Pod `b` pending. -/
def slicesWanted (phase : PodPhase) : Snapshot :=
  ⟨⟨sliceableCard, {}⟩, [wholeSlicePod "a" 1 phase, wholeSlicePod "b" 2 .pending]⟩

theorem sliced_refusal_of_newcomer :
    (∀ c ∈ allocatingCandidates (slicer.allocationMatch {} sliceReserved (slicesWanted .running)
        [⟨⟨"g", "x"⟩, 0⟩] none) (slicesWanted .running).pods,
      ShortOfRoom {} slicer sliceReserved (slicesWanted .running) [⟨⟨"g", "x"⟩, 0⟩] c) ↔
      ∀ c ∈ allocatingCandidates (slicer.allocationMatch {} sliceReserved (slicesWanted .running)
        [⟨⟨"g", "x"⟩, 0⟩] none) (slicesWanted .running).pods,
        Untested {} slicer sliceReserved (slicesWanted .running) [⟨⟨"g", "x"⟩, 0⟩] c →
          ShortOfRoom {} slicer sliceReserved (slicesWanted .running) [⟨⟨"g", "x"⟩, 0⟩] c :=
  @sliced_refusal_no_wrong_pick_iff {} slicer sliceReserved (slicesWanted .running)
    [⟨⟨"g", "x"⟩, 0⟩] none ["g:x:0"] ⟨"g", "x"⟩ (.units 0 1600000) rfl rfl rfl

/-- Both Pods pending, the call may repeat the one of `a`; it is refused for `b`, although `a` still
fits where it is. -/
theorem sliced_refusal_passes_over_holder :
    decideAllocation {} slicer sliceReserved (slicesWanted .pending) none none [⟨⟨"g", "x"⟩, 0⟩]
        ["g:x:0"] = .error (.slicedOvercommit ⟨"g", "x"⟩ (.units 0 1600000)) ∧
      ∃ c ∈ allocatingCandidates (slicer.allocationMatch {} sliceReserved (slicesWanted .pending)
          [⟨⟨"g", "x"⟩, 0⟩] none) (slicesWanted .pending).pods,
        ¬ ShortOfRoom {} slicer sliceReserved (slicesWanted .pending) [⟨⟨"g", "x"⟩, 0⟩] c := by
  refine ⟨rfl, (wholeSlicePod "a" 1 .pending, ⟨"c", _, _⟩), .head _, ?_⟩
  rintro ⟨res, hres, hshort⟩
  obtain rfl : res = ⟨"g", "x"⟩ := mem_singleton.mp hres
  exact hshort rfl

end GpuStack
