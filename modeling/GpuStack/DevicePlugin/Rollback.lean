import GpuStack.DevicePlugin.Allocate

/-!
# DevicePlugin/Rollback — what a failed Allocate leaves of the claims before it

A call that fails after it reserved has one of two ways back.  Before its patch lands it drops the
reservation of its container, whatever the reservation was before the call.  After its patch it puts
the claim it found back, in the reservations and in the annotation.

So a failed call is no trace at all exactly when the claim it found survives its way back
(`KeepsClaim`).  Without the reservation, a replay is left with what the cached copy of its Pod says:
a copy that has not caught up with the first call's patch says nothing, and the claim is lost.
-/

namespace GpuStack

open DevicesReconciler

/-- The Pods as the informer has them, with what the API server promises of any list of Pods. -/
structure PodCache where
  pods : List Pod
  nodup_uid : (pods.map (·.uid)).Nodup
  uid_ne : ∀ p ∈ pods, p.uid ≠ ""
  name_ne : ∀ p ∈ pods, ∀ c ∈ p.initContainers ++ p.containers, c.name ≠ ""

theorem PodCache.eq_of_uid_eq (cache : PodCache) {p q : Pod} (hp : p ∈ cache.pods)
    (hq : q ∈ cache.pods) (h : p.uid = q.uid) : p = q :=
  List.inj_on_of_nodup_map cache.nodup_uid hp hq h

/-! ## The two ways back -/

section WaysBack

variable {d : AllocationDecision} {r : DevicesReconciler}

theorem priorClaimOf_fail {e : AllocateError} :
    priorClaimOf (d.fail r e).reconciler d.pod d.container.name
      = unreservedClaimOf r d.pod d.container.name := by
  have hnone : (r.releaseReservation d.pod.uid d.container.name).reservedDevices d.pod.uid
      d.container.name = none := AList.lookup_erase _ _
  simp only [AllocationDecision.fail, priorClaimOf, hnone]
  rfl

theorem sameBut_fail {e : AllocateError} :
    SameBut d.pod.uid d.container.name r (d.fail r e).reconciler :=
  sameBut_releaseReservation

variable {lands : Bool}

theorem sameBut_unpatchAllocatingPod {prior : Option Claim} :
    SameBut d.pod.uid d.container.name r
      (unpatchAllocatingPod r d.pod d.container.name prior lands).1 := by
  unfold unpatchAllocatingPod
  split
  · exact .refl
  · split
    · exact .refl
    · exact sameBut_recordPendingRelease

theorem sameBut_releaseAllocation :
    SameBut d.pod.uid d.container.name r (d.releaseAllocation r lands).1 := by
  unfold AllocationDecision.releaseAllocation
  cases d.priorClaim with
  | none => exact sameBut_releaseReservation.trans sameBut_unpatchAllocatingPod
  | some claim => exact sameBut_reserveDevices.trans sameBut_unpatchAllocatingPod

@[simp] theorem reservedDevices_unpatchAllocatingPod {pod : Pod} {container : String}
    {prior : Option Claim} {u c : String} :
    (unpatchAllocatingPod r pod container prior lands).1.reservedDevices u c
      = r.reservedDevices u c := by
  unfold unpatchAllocatingPod
  split
  · rfl
  · split
    · rfl
    · simp [reservedDevices]

/-- Putting a claim back restores it. -/
theorem priorClaimOf_releaseAllocation_some {claim : Claim} (hu : d.pod.uid ≠ "")
    (hc : d.container.name ≠ "") (hprior : d.priorClaim = some claim) :
    priorClaimOf (d.releaseAllocation r lands).1 d.pod d.container.name = some claim := by
  have hreserved : ((d.releaseAllocation r lands).1).reservedDevices d.pod.uid d.container.name
      = some claim := by
    simp only [AllocationDecision.releaseAllocation, hprior, reservedDevices_unpatchAllocatingPod]
    rw [reservedDevices, reservations_reserveDevices hu hc claim.property]
    exact AList.lookup_insert _
  simp only [priorClaimOf, hreserved]

/-- Taking out an allocation that replaced nothing leaves what the cached copy says, or nothing while
the write is still to land. -/
theorem priorClaimOf_releaseAllocation_none (hu : d.pod.uid ≠ "") (hc : d.container.name ≠ "")
    (hprior : d.priorClaim = none)
    (hpending : r.peekPendingRelease d.pod.uid d.container.name = none)
    {allocations : PodAllocations} (hread : allocatedAcceleratorsOf d.pod = some allocations) :
    priorClaimOf (d.releaseAllocation r lands).1 d.pod d.container.name
      = if lands then recordedClaim d.pod d.container.name else none := by
  have hnone : (d.releaseAllocation r lands).1.reservedDevices d.pod.uid d.container.name = none := by
    simp only [AllocationDecision.releaseAllocation, hprior, reservedDevices_unpatchAllocatingPod]
    exact AList.lookup_erase _ _
  have hpeek : (d.releaseAllocation r lands).1.peekPendingRelease d.pod.uid d.container.name
      = if lands then none else some none := by
    simp only [AllocationDecision.releaseAllocation, hprior, unpatchAllocatingPod,
      unpatchedAnnotation, hread, Option.map_some]
    cases lands with
    | true => exact hpending
    | false => exact peekPendingRelease_recordPendingRelease hu hc
  simp only [priorClaimOf, unreservedClaimOf, hnone, hpeek]
  cases lands <;> rfl

end WaysBack

/-! ## Which way a failed call takes -/

/-- The annotation patch of a call lands: nothing before it fails, and the write goes through. -/
def AllocationDecision.patchLands (d : AllocationDecision) (s : ResourceServer) (v : Responder)
    (w : Writes) (r : DevicesReconciler) (deviceIDs : List String) : Bool :=
  match d.actuatePartition v r deviceIDs with
  | .error _ => false
  | .ok (d, physical, r) =>
    match d.renderPrePatchResponse v s physical with
    | .error _ => false
    | .ok _ =>
      (patchAllocatingPod r d.pod d.container.name ⟨d.status, deviceIDs⟩ w.patchLands).2.isSome

section Failed

variable {s : ResourceServer} {v : Responder} {w : Writes} {d : AllocationDecision}
  {r : DevicesReconciler} {deviceIDs : List String}

/-- Building the partition changes the status of the decision and the reservation of its container,
nothing else. -/
theorem actuatePartition_spec {d' : AllocationDecision} {physical : Option PhysicalSlicedAllocation}
    {r' : DevicesReconciler} (h : d.actuatePartition v r deviceIDs = .ok (d', physical, r')) :
    (∃ status, d' = { d with status }) ∧ SameBut d.pod.uid d.container.name r r'
      ∧ r'.pendingReleases = r.pendingReleases := by
  unfold AllocationDecision.actuatePartition at h
  split at h
  · obtain ⟨rfl, hrest⟩ := Prod.mk.inj (Except.ok.inj h)
    obtain ⟨-, rfl⟩ := Prod.mk.inj hrest
    exact ⟨⟨d.status, rfl⟩, .refl, rfl⟩
  · split at h
    · cases h
    · split at h
      · cases h
      · obtain ⟨rfl, hrest⟩ := Prod.mk.inj (Except.ok.inj h)
        obtain ⟨-, rfl⟩ := Prod.mk.inj hrest
        exact ⟨⟨_, rfl⟩, sameBut_reserveDevices, pendingReleases_reserveDevices⟩

/-- **The two ways back**: a call that fails before its patch lands drops the reservation of its
container, one that fails after it releases the allocation. -/
theorem completeAllocation_failed {e : AllocateError}
    (h : (completeAllocation s v w d r deviceIDs).answer = .error e) :
    ∃ r', SameBut d.pod.uid d.container.name r r' ∧
      if d.patchLands s v w r deviceIDs then
        r'.peekPendingRelease d.pod.uid d.container.name = none
          ∧ (allocatedAcceleratorsOf d.pod).isSome
          ∧ (completeAllocation s v w d r deviceIDs).reconciler
            = (d.releaseAllocation r' w.unpatchLands).1
      else r'.pendingReleases = r.pendingReleases
        ∧ (completeAllocation s v w d r deviceIDs).reconciler
          = (d.fail r' e).reconciler := by
  unfold completeAllocation AllocationDecision.patchLands at *
  cases hact : d.actuatePartition v r deviceIDs with
  | error e' => exact ⟨r, .refl, rfl, rfl⟩
  | ok x =>
    obtain ⟨d', physical, r₁⟩ := x
    obtain ⟨⟨status, rfl⟩, hsame, hpending⟩ := actuatePartition_spec hact
    simp only [hact] at h ⊢
    cases hrender : ({ d with status } : AllocationDecision).renderPrePatchResponse v s physical with
    | error e' => exact ⟨r₁, hsame, hpending, rfl⟩
    | ok rendered =>
      simp only [hrender, AllocationDecision.persistAllocation, patchAllocatingPod] at h ⊢
      cases hpatch : patchedAnnotation r₁ d.pod d.container.name ⟨status, deviceIDs⟩ with
      | none => exact ⟨r₁, hsame, hpending, rfl⟩
      | some annotation =>
        simp only [hpatch] at h ⊢
        cases hlands : w.patchLands with
        | false => exact ⟨r₁, hsame, hpending, rfl⟩
        | true =>
          obtain ⟨allocations, hread, -⟩ := Option.map_eq_some_iff.mp hpatch
          simp only [hlands, if_true] at h ⊢
          cases hresp : rendered.or (v.containerResponse { d with status }) with
          | some resp => simp [hresp] at h
          | none =>
            refine ⟨r₁.dropPendingRelease d.pod.uid d.container.name,
              hsame.trans sameBut_dropPendingRelease, ?_⟩
            simp only [Option.isSome_some, if_true, hread]
            exact ⟨AList.lookup_erase _ _, trivial, rfl⟩

end Failed

/-! ## The claims after a failed call -/

/-- The claim a call found survives its way back.  Before the patch the reservation is dropped, so
the other two records must agree with it.  After the patch only an entry that was void by a pending
release comes back to life: the release is superseded by the patch, and once the compensating write
lands nothing says that the cached copy is behind. -/
def KeepsClaim (r : DevicesReconciler) (w : Writes) (pod : Pod) (container : String)
    (patched : Bool) : Prop :=
  if patched then
    w.unpatchLands = true → r.reservedDevices pod.uid container = none →
      r.peekPendingRelease pod.uid container = some none → recordedClaim pod container = none
  else
    ∀ claim, r.reservedDevices pod.uid container = some claim →
      unreservedClaimOf r pod container = some claim

theorem priorClaimOf_eq_unreserved_iff {r : DevicesReconciler} {pod : Pod} {container : String} :
    unreservedClaimOf r pod container = priorClaimOf r pod container ↔
      ∀ claim, r.reservedDevices pod.uid container = some claim →
        unreservedClaimOf r pod container = some claim := by
  unfold priorClaimOf
  cases r.reservedDevices pod.uid container with
  | none => simp
  | some held => simp

theorem priorClaimOf_eq_none_iff {r : DevicesReconciler} {pod : Pod} {container : String} :
    priorClaimOf r pod container = none ↔ r.reservedDevices pod.uid container = none ∧
      (r.peekPendingRelease pod.uid container = some none
        ∨ r.peekPendingRelease pod.uid container = none ∧ recordedClaim pod container = none) := by
  unfold priorClaimOf unreservedClaimOf
  cases r.reservedDevices pod.uid container with
  | some held => simp
  | none =>
    cases r.peekPendingRelease pod.uid container with
    | some prior => simp
    | none => simp

variable {sw : Switches} {s : ResourceServer} {r : DevicesReconciler} {snap : Snapshot}
  {v : Responder} {w : Writes} {kubelet : Option (Pod → Container → Bool)}
  {tokens : List ResourceToken} {deviceIDs : List String} {d : AllocationDecision}
  {reserved : DevicesReconciler}

/-- **A failed call leaves every claim as it was exactly when the claim it found survives its way
back.** -/
theorem failed_allocate_keeps_claims_iff (cache : PodCache) (hcache : snap.pods = cache.pods)
    (hdecide : decideAllocation sw s r snap v.placer kubelet tokens deviceIDs = .ok (d, reserved))
    {e : AllocateError}
    (herr : (allocate sw s r snap v w kubelet tokens deviceIDs).answer = .error e) :
    (∀ pod ∈ snap.pods, ∀ container,
        priorClaimOf (allocate sw s r snap v w kubelet tokens deviceIDs).reconciler pod container
          = priorClaimOf r pod container) ↔
      KeepsClaim r w d.pod d.container.name (d.patchLands s v w reserved deviceIDs) := by
  obtain ⟨chosen, logical, hd, rfl⟩ := decideAllocation_spec sw s r snap hdecide
  have hmem : d.pod ∈ cache.pods := hcache ▸ hd.pod_mem
  have hu := cache.uid_ne _ hmem
  have hc := cache.name_ne _ hmem _ hd.container_mem
  simp only [allocate, hdecide] at herr ⊢
  obtain ⟨r', hsame, hway⟩ := completeAllocation_failed herr
  have hbefore : SameBut d.pod.uid d.container.name r r' := sameBut_reserveDevices.trans hsame
  have hafter : SameBut d.pod.uid d.container.name r
      (completeAllocation s v w d (r.reserveDevices d.pod.uid d.container.name d.status deviceIDs)
        deviceIDs).reconciler := by
    split at hway
    · rw [hway.2.2]
      exact hbefore.trans sameBut_releaseAllocation
    · rw [hway.2]
      exact hbefore.trans sameBut_fail
  -- only the claim of the call's own container is in question
  have honly : (∀ pod ∈ snap.pods, ∀ container,
      priorClaimOf (completeAllocation s v w d
        (r.reserveDevices d.pod.uid d.container.name d.status deviceIDs) deviceIDs).reconciler
          pod container = priorClaimOf r pod container) ↔
      priorClaimOf (completeAllocation s v w d
        (r.reserveDevices d.pod.uid d.container.name d.status deviceIDs) deviceIDs).reconciler
          d.pod d.container.name = priorClaimOf r d.pod d.container.name := by
    refine ⟨fun h => h _ hd.pod_mem _, fun h pod hpod container => ?_⟩
    by_cases hkey : (⟨pod.uid, container⟩ : ReservationKey) = ⟨d.pod.uid, d.container.name⟩
    · obtain ⟨huid, rfl⟩ := ReservationKey.mk.inj hkey
      obtain rfl := cache.eq_of_uid_eq (hcache ▸ hpod) hmem huid
      exact h
    · exact priorClaimOf_congr (hafter _ _ hkey)
  rw [honly]
  unfold KeepsClaim
  split at hway
  · rename_i hlands
    obtain ⟨hpeek, hread, hrec⟩ := hway
    obtain ⟨allocations, hread⟩ := Option.isSome_iff_exists.mp hread
    rw [if_pos hlands, hrec]
    rcases hprior : d.priorClaim with _ | claim
    · rw [priorClaimOf_releaseAllocation_none hu hc hprior hpeek hread, ← hd.priorClaim_eq, hprior]
      have hnone := priorClaimOf_eq_none_iff.mp (hd.priorClaim_eq ▸ hprior)
      cases w.unpatchLands with
      | false => simp
      | true =>
        simp only [if_true, true_implies]
        tauto
    · rw [priorClaimOf_releaseAllocation_some hu hc hprior, ← hd.priorClaim_eq, hprior]
      refine iff_of_true rfl fun _ hres hpend => ?_
      have hnone := priorClaimOf_eq_none_iff.mpr ⟨hres, .inl hpend⟩
      rw [← hd.priorClaim_eq, hprior] at hnone
      cases hnone
  · rename_i hlands
    obtain ⟨hpending, hrec⟩ := hway
    rw [if_neg hlands, hrec, priorClaimOf_fail, ← priorClaimOf_eq_unreserved_iff]
    simp only [unreservedClaimOf, peekPendingRelease, hpending, pendingReleases_reserveDevices]

/-! ### A replay behind its own patch -/

/-- A server of whole cards. -/
def wholeCards : ResourceServer := ⟨"nvidia", "nvidia.com/gpu", .exclusive⟩

/-- One container that asks for one whole card. -/
def wholeCardContainer : Container where
  name := "c"
  limits := AList.singleton (.exclusive "nvidia.com/gpu") 1

/-- Its Pod, before any allocation is recorded on the informer's copy. -/
def uncaughtPod : Pod := { uid := "p", containers := [wholeCardContainer] }

/-- A node with one card. -/
def oneCardNode : Devices := ⟨[⟨"g", "nvidia", 0, [{ id := "x" }]⟩], {}⟩

def oneCardToken : List ResourceToken := [⟨⟨"g", "x"⟩, 0⟩]

/-- A responder that answers every call. -/
def answering : Responder where
  logicalResponse _ := some {}
  containerResponse _ := some {}

/-- The first call for the container goes through. -/
def firstCall : AllocateOutcome :=
  allocate {} wholeCards {} ⟨oneCardNode, [uncaughtPod]⟩ answering ⟨true, true⟩ none oneCardToken
    ["g:x:0000"]

/-- kubelet repeats the call before the informer has the first patch, and this patch fails. -/
def repeatedCall : AllocateOutcome :=
  allocate {} wholeCards firstCall.reconciler ⟨oneCardNode, [uncaughtPod]⟩ answering ⟨false, true⟩
    none oneCardToken ["g:x:0000"]

/-- **A failed replay loses the claim it repeats**: the container held the card before the call, and
holds nothing after it. -/
theorem failed_replay_loses_claim :
    firstCall.answer = .ok {} ∧ repeatedCall.answer = .error .patchAllocatingPod
      ∧ (priorClaimOf firstCall.reconciler uncaughtPod "c").isSome
      ∧ priorClaimOf repeatedCall.reconciler uncaughtPod "c" = none := by
  decide +kernel

/-- The copy of the Pod the informer has once it has caught up. -/
def caughtUpPod : Pod :=
  { uncaughtPod with annotation := firstCall.writes.headD .absent }

def caughtUpCache : PodCache where
  pods := [caughtUpPod]
  nodup_uid := List.nodup_singleton _
  uid_ne := by simp [caughtUpPod, uncaughtPod]
  name_ne := by simp [caughtUpPod, uncaughtPod, wholeCardContainer]

/-- The claim a whole card was reserved under. -/
def wholeCardClaim : Claim :=
  ⟨⟨⟨[⟨"g", "nvidia", [{ id := "x", mode := .exclusive, allocated := 1600000 }]⟩]⟩, ["g:x:0000"]⟩,
    List.cons_ne_nil _ _⟩

/-- What the repeated call decides on the copy that has caught up. -/
def replayDecision : AllocationDecision where
  pod := caughtUpPod
  container := wholeCardContainer
  devices := oneCardNode
  status := wholeCardClaim.val.devices
  priorClaim := some wholeCardClaim

/-- A failed replay behind no patch keeps every claim. -/
theorem failed_replay_keeps_claims :
    (allocate {} wholeCards firstCall.reconciler ⟨oneCardNode, [caughtUpPod]⟩ answering
      ⟨false, true⟩ none oneCardToken ["g:x:0000"]).answer = .error .patchAllocatingPod ∧
    ∀ pod ∈ [caughtUpPod], ∀ container,
      priorClaimOf (allocate {} wholeCards firstCall.reconciler ⟨oneCardNode, [caughtUpPod]⟩ answering
        ⟨false, true⟩ none oneCardToken ["g:x:0000"]).reconciler pod container
        = priorClaimOf firstCall.reconciler pod container := by
  have hdecide : decideAllocation {} wholeCards firstCall.reconciler ⟨oneCardNode, [caughtUpPod]⟩
      answering.placer none oneCardToken ["g:x:0000"]
      = .ok (replayDecision, firstCall.reconciler) := rfl
  have herr : (allocate {} wholeCards firstCall.reconciler ⟨oneCardNode, [caughtUpPod]⟩ answering
      ⟨false, true⟩ none oneCardToken ["g:x:0000"]).answer = .error .patchAllocatingPod := by
    decide +kernel
  have hlands : replayDecision.patchLands wholeCards answering ⟨false, true⟩ firstCall.reconciler
      ["g:x:0000"] = false := by decide +kernel
  have hreserved : firstCall.reconciler.reservedDevices "p" "c" = some wholeCardClaim := by
    decide +kernel
  refine ⟨herr, (failed_allocate_keeps_claims_iff caughtUpCache rfl hdecide herr).mpr ?_⟩
  rw [KeepsClaim, hlands, if_neg (by simp)]
  intro claim hclaim
  obtain rfl := Option.some.inj (hreserved.symm.trans hclaim)
  decide +kernel

end GpuStack
