import GpuStack.DevicePlugin.PartitionChoice
import GpuStack.Lib.Scan

/-!
# DevicePlugin/Allocate — one Allocate call

An Allocate has two parts.  `decideAllocation` runs under the node's allocate mutex: it finds the
container the call is for, checks what it asks against one snapshot, and reserves the accelerators.
`completeAllocation` runs after the mutex is released: it builds the hardware partition, renders the
response, patches the annotation and, when the vendor's responder refuses after that, takes the
allocation back.

What the vendors answer and whether a write to the API server lands are inputs.
-/

namespace GpuStack

/-- Why an Allocate is refused. -/
inductive AllocateError
  | noPods
  | noAllocatingPod (resource : ResourceName) (quantity : ℤ)
  | repeatedSharedCard (res : Resource)
  | conflictingReplay (podUID container : String)
  | noPartitionProfile (podUID container : String)
  | noPartitionRoom (instances : ℕ) (profile : String)
      (candidates : List (Resource × PartitionCandidate)) (excluded : List PartitionExclusion)
  | crossMode (res : Resource) (held requested : DeviceAllocationMode)
  | slicedOvercommit (res : Resource) (why : Shortage)
  | placeLogicalSlice
  | cannotActuate (profile : String)
  | actuatePartition
  | logicalResponse
  | patchAllocatingPod
  | containerResponse
deriving DecidableEq

/-! ## Which container the call is for -/

/-- Which pending container a call can be serving.  `kubelet` is kubelet's own record of the
containers that still wait for a device. -/
structure AllocationMatch where
  resourceName : ResourceName
  quantity : ℤ
  feasible : Option (Pod → Container → Bool) := none
  kubelet : Option (Pod → Container → Bool) := none

/-- The candidates, by rank. -/
structure AllocatingCandidates where
  feasible : List (Pod × Container) := []
  infeasible : List (Pod × Container) := []
  claimed : List (Pod × Container) := []

/-- Rank one container.  One that holds a reservation has been answered already. -/
def classifyContainer (r : DevicesReconciler) (m : AllocationMatch) (pod : Pod)
    (tiers : AllocatingCandidates) (ctr : Container) : AllocatingCandidates :=
  if ctr.limits.lookup m.resourceName ≠ some m.quantity then tiers
  else if (r.reservedDevices pod.uid ctr.name).isSome then
    { tiers with claimed := tiers.claimed ++ [(pod, ctr)] }
  else if m.feasible.all (· pod ctr) then
    { tiers with feasible := tiers.feasible ++ [(pod, ctr)] }
  else { tiers with infeasible := tiers.infeasible ++ [(pod, ctr)] }

/-- Rank the containers of a Pod that is still pending. -/
def classifyPod (r : DevicesReconciler) (m : AllocationMatch) (tiers : AllocatingCandidates)
    (pod : Pod) : AllocatingCandidates :=
  if pod.phase = .unset ∨ pod.phase = .pending then
    (pod.initContainers ++ pod.containers).foldl (classifyContainer r m pod) tiers
  else tiers

/-- Rank the containers of the node's pending Pods, oldest first. -/
def classifyAllocatingCandidates (r : DevicesReconciler) (m : AllocationMatch) (pods : List Pod) :
    AllocatingCandidates :=
  pods.foldl (classifyPod r m) {}

/-- Keep the candidates kubelet reports as waiting. -/
def narrowToKubeletPending (m : AllocationMatch) (tiers : AllocatingCandidates) :
    AllocatingCandidates :=
  match m.kubelet with
  | none => tiers
  | some waits =>
    { feasible := tiers.feasible.filter fun c => waits c.1 c.2
      infeasible := tiers.infeasible.filter fun c => waits c.1 c.2
      claimed := tiers.claimed.filter fun c => waits c.1 c.2 }

/-- The oldest candidate of the highest rank that has any. -/
def rankAllocatingCandidate (tiers : AllocatingCandidates) : Option (Pod × Container) :=
  (tiers.feasible ++ tiers.infeasible ++ tiers.claimed).head?

/-- **The container a call is for.** -/
def getAllocatingPod (r : DevicesReconciler) (pods : List Pod) (m : AllocationMatch) :
    Except AllocateError (Pod × Container) :=
  if pods = [] then .error .noPods else
    let sorted := pods.insertionSort fun a b => a.creationTimestamp ≤ b.creationTimestamp
    match rankAllocatingCandidate
        (narrowToKubeletPending m (classifyAllocatingCandidates r m sorted)) with
    | some c => .ok c
    | none => .error (.noAllocatingPod m.resourceName m.quantity)

/-! ## The snapshot -/

/-- Add the placements of one map to another, card by card. -/
def appendPlacements (occupied more : Placements) : Placements :=
  more.entries.foldl (fun m e => m.insert e.1 ((m.lookup e.1).getD [] ++ e.2)) occupied

/-- The hardware placements the annotations record. -/
def livePhysicalOccupied (pods : List Pod) : Placements :=
  (pods.foldl (fun maps pod =>
    match allocatedStatusOf pod with
    | some status => accumulatePhysicalOccupied status maps
    | none => maps) (∅, ∅)).1

/-- The hardware placements the annotations record or the reservations claim. -/
def occupiedPhysicalPlacements (r : DevicesReconciler) (pods : List Pod) : Placements :=
  appendPlacements (livePhysicalOccupied pods) r.reservedPhysicalOccupied

def accumulateLogicalOccupied (status : DevicesStatus) (occupied : Placements) : Placements :=
  status.rows.foldl (fun m row =>
    if row.2.allocatedLogicalPlacements = [] then m
    else m.insert row.1 ((m.lookup row.1).getD [] ++ row.2.allocatedLogicalPlacements)) occupied

/-- The logical geometry the annotations record. -/
def liveLogicalOccupied (released : Bool) (pods : List Pod) : Placements :=
  pods.foldl (fun occupied pod =>
    match allocatedStatusOf pod with
    | some status => accumulateLogicalOccupied (heldAllocation released pod status) occupied
    | none => occupied) ∅

/-- The logical geometry the annotations record or the reservations claim. -/
def occupiedLogicalPlacements (released : Bool) (r : DevicesReconciler) (pods : List Pod) :
    Placements :=
  appendPlacements (liveLogicalOccupied released pods)
    (r.reservations.entries.foldl (fun m e => accumulateLogicalOccupied e.2.val.devices m) ∅)

/-! ## The decision -/

/-- The two environment switches an Allocate reads. -/
structure Switches where
  slicedAllocateGateOff : Bool := false
  terminatedPodsReleased : Bool := true
deriving DecidableEq, Repr

/-- What a vendor that places logical geometry picks. -/
abbrev LogicalPlacer :=
  Pod → Container → Devices → (AList fun _ : Resource => ℤ) → Placements → Option Placements

/-- What one Allocate settles under the mutex. -/
structure AllocationDecision where
  pod : Pod
  container : Container
  devices : Devices
  profile : String := ""
  status : DevicesStatus
  logicalPlacements : Placements := ∅
  priorClaim : Option Claim
deriving DecidableEq

/-- What an Allocate decides against: the ledger and the Pods as the informer has them. -/
structure Snapshot where
  devices : Devices
  pods : List Pod

variable (sw : Switches) (s : ResourceServer) (r : DevicesReconciler) (snap : Snapshot)

/-- The occupancy a sliced Allocate decides against, `none` for the other families and while the
refusal is switched off. -/
def slicedOccupancyForAllocate : Option SlicedOccupancy :=
  if s.allocationMode ≠ .sliced ∨ sw.slicedAllocateGateOff then none
  else some (slicedOccupancy sw.terminatedPodsReleased r snap.pods)

/-- The test that tells two otherwise identical candidates apart. -/
def candidateFeasible (tokensByCard : TokensByCard) : Option (Pod → Container → Bool) :=
  match s.allocationMode with
  | .sliced => some fun pod ctr =>
    match ctr.limits.lookup (.slicedUnits s.base) with
    | some q => decide (q ≤ 0) || tokensByCard.keys.all fun res =>
        (SlicedRoom.shortage
          ⟨snap.devices, slicedOccupancyForAllocate sw s r snap, ⟨pod.uid, ctr.name⟩⟩ res
          (unitsCharged q ((tokensByCard.lookup res).getD []).length)).isNone
    | none => true
  | .partitioned => some fun _ ctr =>
    match partitionProfileOf ctr with
    | some profile =>
      (selectPartitionPlacements ((partitionCandidates s r snap.devices
        (occupiedPhysicalPlacements r snap.pods) profile).map (·.2)) 1).isSome
    | none => true
  | _ => none

/-- The cards a recorded allocation names. -/
def claimedCards (claim : Claim) : List Resource := claim.val.devices.rows.map (·.1)

/-- A repeated call of a family kubelet chooses the cards for names other cards than the container
holds. -/
def conflictingReplay (prior : Option Claim) (tokensByCard : TokensByCard) : Bool :=
  match prior with
  | some claim => s.allocationMode ≠ .partitioned
      && !((claimedCards claim).toFinset = tokensByCard.keys.toFinset)
  | none => false

/-- The cards of an allocation, and what one token of it costs. -/
structure ChosenCards where
  cards : PartitionCards
  unitsPerToken : ℤ
  profile : String := ""

/-- The cards kubelet chose or, for a partition, the server itself. -/
def chooseCards (pod : Pod) (ctr : Container) (tokens : List ResourceToken) :
    Except AllocateError ChosenCards :=
  let (unitsPerToken, unitsRequested) := s.requestedUnits ctr
  if s.allocationMode ≠ .partitioned then
    .ok ⟨⟨ResourceServer.groupTokens tokens, ∅⟩, unitsPerToken, ""⟩
  else
    match partitionProfileOf ctr with
    | none => .error (.noPartitionProfile pod.uid ctr.name)
    | some profile =>
      let occupied := occupiedPhysicalPlacements r snap.pods
      match choosePartitionCards s r snap.devices pod ctr.name occupied profile tokens.length with
      | none => .error (.noPartitionRoom tokens.length profile
          (partitionCandidates s r snap.devices occupied profile)
          (partitionExclusions s r snap.devices occupied profile))
      | some cards =>
        .ok ⟨cards, partitionUnits s snap.devices.spec profile unitsPerToken unitsRequested, profile⟩

/-- The geometry the container holds already. -/
def priorLogicalPlacements (pod : Pod) (container : String) : Option Placements :=
  (priorAllocationOf r pod container).bind fun prior =>
    let placements := accumulateLogicalOccupied prior ∅
    if placements.keys = [] then none else some placements

/-- The logical geometry of an allocation: none unless the responder places some. -/
def placeLogicalSlice (placer : Option LogicalPlacer) (pod : Pod) (ctr : Container)
    (status : DevicesStatus) : Except AllocateError Placements :=
  match placer with
  | none => .ok ∅
  | some place =>
    if s.allocationMode ≠ .sliced then .ok ∅ else
      match priorLogicalPlacements r pod ctr.name with
      | some prior => .ok prior
      | none =>
        match place pod ctr snap.devices (ResourceServer.allocationUnits status)
            (occupiedLogicalPlacements sw.terminatedPodsReleased r snap.pods) with
        | some placements => .ok placements
        | none => .error .placeLogicalSlice

/-- The allocation with the geometry it means to occupy.  A partition has no identifier yet. -/
def plannedStatus (chosen : ChosenCards) (logical : Placements) : DevicesStatus :=
  let charged := s.accumulateAllocation snap.devices.spec chosen.cards.tokens chosen.unitsPerToken
  let placed := applyLogicalPlacements charged logical
  if chosen.cards.placements.keys = [] then placed
  else applyPhysicalPlacements placed chosen.profile chosen.cards.placements ∅

/-- The refusals of a decision once its container and its cards are known. -/
def refusal (pod : Pod) (ctr : Container) (chosen : ChosenCards) : Option AllocateError :=
  match s.crossModeCard r snap.devices.status chosen.cards.tokens with
  | some (res, held) => some (.crossMode res held s.allocationMode)
  | none =>
    match slicedOccupancyForAllocate sw s r snap with
    | none => none
    | some occupied =>
      (slicedOvercommit ⟨snap.devices, some occupied, ⟨pod.uid, ctr.name⟩⟩ chosen.cards.tokens
        chosen.unitsPerToken).map fun (res, why) => .slicedOvercommit res why

/-- Stop on a refusal. -/
def refuseOn : Option AllocateError → Except AllocateError Unit
  | some e => .error e
  | none => .ok ()

/-- **The serialized part of an Allocate**: the decision, and the tables with the accelerators
reserved. -/
def decideAllocation (placer : Option LogicalPlacer) (kubelet : Option (Pod → Container → Bool))
    (tokens : List ResourceToken) (deviceIDs : List String) :
    Except AllocateError (AllocationDecision × DevicesReconciler) := do
  refuseOn ((s.repeatedSharedCard (ResourceServer.groupTokens tokens)).map .repeatedSharedCard)
  let (pod, ctr) ← getAllocatingPod r snap.pods
    { resourceName := s.resourceName
      quantity := tokens.length
      feasible := candidateFeasible sw s r snap (ResourceServer.groupTokens tokens)
      kubelet := kubelet }
  let prior := priorClaimOf r pod ctr.name
  refuseOn (if conflictingReplay s prior (ResourceServer.groupTokens tokens) then
    some (.conflictingReplay pod.uid ctr.name) else none)
  let chosen ← chooseCards s r snap pod ctr tokens
  refuseOn (refusal sw s r snap pod ctr chosen)
  let charged :=
    s.accumulateAllocation snap.devices.spec chosen.cards.tokens chosen.unitsPerToken
  let logical ← placeLogicalSlice sw s r snap placer pod ctr charged
  let status := plannedStatus s snap chosen logical
  return ({ pod := pod
            container := ctr
            devices := snap.devices
            profile := chosen.profile
            status := status
            logicalPlacements := logical
            priorClaim := prior },
    r.reserveDevices pod.uid ctr.name status deviceIDs)

/-! ## After the mutex -/

/-- What kubelet is told. -/
structure ContainerAllocateResponse where
  envs : List (String × String) := []
deriving DecidableEq, Repr

/-- The outcome of building a hardware partition. -/
structure PhysicalSlicedAllocation where
  profile : String
  placements : Placements
  ids : AList fun _ : Resource => String := ∅
  response : Option ContainerAllocateResponse
deriving DecidableEq

/-- What the vendor answers when asked about a decision; `none` is an error.  A responder without an
actuator cannot build partitions, one without a placer places no logical geometry. -/
structure Responder where
  placer : Option LogicalPlacer := none
  actuator : Option (AllocationDecision → Option PhysicalSlicedAllocation) := none
  logicalResponse : AllocationDecision → Option ContainerAllocateResponse
  containerResponse : AllocationDecision → Option ContainerAllocateResponse

/-- Which writes of a call land. -/
structure Writes where
  patchLands : Bool
  unpatchLands : Bool
deriving DecidableEq, Repr

/-- The responder places the geometry of this server's allocations. -/
def Responder.placesLogical (v : Responder) (s : ResourceServer) : Bool :=
  v.placer.isSome && s.allocationMode = .sliced

/-- A call's answer, the tables it leaves, and the annotations it wrote on its Pod. -/
structure AllocateOutcome where
  answer : Except AllocateError ContainerAllocateResponse
  reconciler : DevicesReconciler
  writes : List AllocationAnnotation := []

namespace AllocationDecision

variable (d : AllocationDecision)

/-- Give the reservation back, and answer with an error. -/
def fail (r : DevicesReconciler) (e : AllocateError) : AllocateOutcome :=
  ⟨.error e, r.releaseReservation d.pod.uid d.container.name, []⟩

/-- Build the partition of a decision that names a profile.  The decision and its reservation take
what the hardware gave. -/
def actuatePartition (v : Responder) (r : DevicesReconciler) (deviceIDs : List String) :
    Except AllocateError (AllocationDecision × Option PhysicalSlicedAllocation × DevicesReconciler) :=
  if d.profile = "" then .ok (d, none, r) else
    match v.actuator with
    | none => .error (.cannotActuate d.profile)
    | some actuate =>
      match actuate d with
      | none => .error .actuatePartition
      | some physical =>
        let status :=
          applyPhysicalPlacements d.status physical.profile physical.placements physical.ids
        .ok ({ d with status }, some physical,
          r.reserveDevices d.pod.uid d.container.name status deviceIDs)

/-- The response of the two families that render it before the patch. -/
def renderPrePatchResponse (v : Responder) (s : ResourceServer)
    (physical : Option PhysicalSlicedAllocation) :
    Except AllocateError (Option ContainerAllocateResponse) :=
  match physical with
  | some p => .ok p.response
  | none =>
    if v.placesLogical s then
      match v.logicalResponse d with
      | some resp => .ok (some resp)
      | none => .error .logicalResponse
    else .ok none

/-- Give back an allocation whose patch has landed: what the container held before is put back in
both records. -/
def releaseAllocation (r : DevicesReconciler) (lands : Bool) :
    DevicesReconciler × Option AllocationAnnotation :=
  let r := match d.priorClaim with
    | some claim =>
      r.reserveDevices d.pod.uid d.container.name claim.val.devices claim.val.deviceIDs
    | none => r.releaseReservation d.pod.uid d.container.name
  unpatchAllocatingPod r d.pod d.container.name d.priorClaim lands

/-- The patch, and for the remaining families the response after it. -/
def persistAllocation (v : Responder) (w : Writes) (r : DevicesReconciler)
    (deviceIDs : List String) (rendered : Option ContainerAllocateResponse) : AllocateOutcome :=
  match patchAllocatingPod r d.pod d.container.name ⟨d.status, deviceIDs⟩ w.patchLands with
  | (_, none) => d.fail r .patchAllocatingPod
  | (r, some patched) =>
    match rendered.or (v.containerResponse d) with
    | some resp => ⟨.ok resp, r, [patched]⟩
    | none =>
      let (r, unpatched) := d.releaseAllocation r w.unpatchLands
      ⟨.error .containerResponse, r, patched :: unpatched.toList⟩

end AllocationDecision

/-- **The part of an Allocate after the mutex.** -/
def completeAllocation (s : ResourceServer) (v : Responder) (w : Writes) (d : AllocationDecision)
    (r : DevicesReconciler) (deviceIDs : List String) : AllocateOutcome :=
  match d.actuatePartition v r deviceIDs with
  | .error e => d.fail r e
  | .ok (d, physical, r) =>
    match d.renderPrePatchResponse v s physical with
    | .error e => d.fail r e
    | .ok rendered => d.persistAllocation v w r deviceIDs rendered

/-- **One Allocate call.** -/
def allocate (v : Responder) (w : Writes) (kubelet : Option (Pod → Container → Bool))
    (tokens : List ResourceToken) (deviceIDs : List String) : AllocateOutcome :=
  match decideAllocation sw s r snap v.placer kubelet tokens deviceIDs with
  | .error e => ⟨.error e, r, []⟩
  | .ok (d, reserved) => completeAllocation s v w d reserved deviceIDs

/-! ## What a decision settles -/

/-- A decision, by the checks it passed: `chosen` are its cards and `logical` its geometry. -/
structure Decided (tokens : List ResourceToken) (chosen : ChosenCards) (logical : Placements)
    (d : AllocationDecision) : Prop where
  pod_mem : d.pod ∈ snap.pods
  pending : d.pod.phase = .unset ∨ d.pod.phase = .pending
  container_mem : d.container ∈ d.pod.initContainers ++ d.pod.containers
  priorClaim_eq : d.priorClaim = priorClaimOf r d.pod d.container.name
  replay : conflictingReplay s d.priorClaim (ResourceServer.groupTokens tokens) = false
  chooseCards_eq : chooseCards s r snap d.pod d.container tokens = .ok chosen
  refusal_eq : refusal sw s r snap d.pod d.container chosen = none
  status_eq : d.status = plannedStatus s snap chosen logical
  profile_eq : d.profile = chosen.profile

theorem refuseOn_eq_ok {e : Option AllocateError} {u : Unit} : refuseOn e = .ok u ↔ e = none := by
  cases e with
  | none => exact ⟨fun _ => rfl, fun _ => rfl⟩
  | some e => exact ⟨nofun, nofun⟩

/-- Every ranked candidate is a container of a pending Pod. -/
def AllocatingCandidates.all (tiers : AllocatingCandidates) : List (Pod × Container) :=
  tiers.feasible ++ tiers.infeasible ++ tiers.claimed

variable {c : Pod × Container} {tiers : AllocatingCandidates} {m : AllocationMatch}

theorem mem_classifyContainer {pod : Pod} {ctr : Container}
    (h : c ∈ (classifyContainer r m pod tiers ctr).all) :
    c ∈ tiers.all ∨ c = (pod, ctr) := by
  unfold classifyContainer at h
  simp only [AllocatingCandidates.all] at h ⊢
  grind

theorem mem_foldl_classifyContainer {pod : Pod} {ctrs : List Container}
    (h : c ∈ (ctrs.foldl (classifyContainer r m pod) tiers).all) :
    c ∈ tiers.all ∨ c.1 = pod ∧ c.2 ∈ ctrs := by
  induction ctrs generalizing tiers with
  | nil => exact .inl h
  | cons ctr ctrs ih =>
    obtain hc | ⟨hpod, hctr⟩ := ih h
    · obtain hc | rfl := mem_classifyContainer r hc
      · exact .inl hc
      · exact .inr ⟨rfl, .head _⟩
    · exact .inr ⟨hpod, .tail _ hctr⟩

theorem mem_foldl_classifyPod {pods : List Pod} (h : c ∈ (pods.foldl (classifyPod r m) tiers).all) :
    c ∈ tiers.all ∨ c.1 ∈ pods ∧ (c.1.phase = .unset ∨ c.1.phase = .pending)
      ∧ c.2 ∈ c.1.initContainers ++ c.1.containers := by
  induction pods generalizing tiers with
  | nil => exact .inl h
  | cons pod pods ih =>
    obtain hc | ⟨hpod, hrest⟩ := ih h
    · unfold classifyPod at hc
      split at hc
      · rename_i hphase
        obtain hc | ⟨rfl, hctr⟩ := mem_foldl_classifyContainer r hc
        · exact .inl hc
        · exact .inr ⟨.head _, hphase, hctr⟩
      · exact .inl hc
    · exact .inr ⟨.tail _ hpod, hrest⟩

/-- The container a call is for belongs to a Pod of the snapshot that is still pending. -/
theorem getAllocatingPod_spec {pods : List Pod} (h : getAllocatingPod r pods m = .ok c) :
    c.1 ∈ pods ∧ (c.1.phase = .unset ∨ c.1.phase = .pending)
      ∧ c.2 ∈ c.1.initContainers ++ c.1.containers := by
  unfold getAllocatingPod at h
  split at h
  · cases h
  · dsimp only at h
    split at h
    · rename_i c' hrank
      obtain rfl := Except.ok.inj h
      have hmem := List.mem_of_mem_head? (Option.mem_def.mpr hrank)
      have hall : c' ∈ (classifyAllocatingCandidates r m (pods.insertionSort
          fun a b => a.creationTimestamp ≤ b.creationTimestamp)).all := by
        unfold narrowToKubeletPending at hmem
        simp only [AllocatingCandidates.all]
        grind
      obtain ⟨hpod, hrest⟩ := (mem_foldl_classifyPod r hall).resolve_left List.not_mem_nil
      exact ⟨(List.mem_insertionSort _).mp hpod, hrest⟩
    · cases h

/-- **What a decision settles**: it passed every check, and its status is reserved. -/
theorem decideAllocation_spec {placer : Option LogicalPlacer}
    {kubelet : Option (Pod → Container → Bool)} {tokens : List ResourceToken}
    {deviceIDs : List String} {d : AllocationDecision} {reserved : DevicesReconciler}
    (h : decideAllocation sw s r snap placer kubelet tokens deviceIDs = .ok (d, reserved)) :
    ∃ chosen logical, Decided sw s r snap tokens chosen logical d
      ∧ reserved = r.reserveDevices d.pod.uid d.container.name d.status deviceIDs := by
  unfold decideAllocation at h
  obtain ⟨_, _, h⟩ := Scan.bind_eq_ok.mp h
  obtain ⟨⟨pod, ctr⟩, hpod, h⟩ := Scan.bind_eq_ok.mp h
  dsimp only at h
  obtain ⟨_, hreplay, h⟩ := Scan.bind_eq_ok.mp h
  obtain ⟨chosen, hchosen, h⟩ := Scan.bind_eq_ok.mp h
  obtain ⟨_, hrefusal, h⟩ := Scan.bind_eq_ok.mp h
  obtain ⟨logical, _, h⟩ := Scan.bind_eq_ok.mp h
  obtain ⟨rfl, rfl⟩ := Prod.mk.inj (Except.ok.inj h)
  obtain ⟨hmem, hpending, hctr⟩ := getAllocatingPod_spec r hpod
  have hno := refuseOn_eq_ok.mp hreplay
  exact ⟨chosen, logical, ⟨hmem, hpending, hctr, rfl, by simpa using hno, hchosen,
    refuseOn_eq_ok.mp hrefusal, rfl, rfl⟩, rfl⟩

end GpuStack
