import GpuStack.DevicePlugin.Ledger
import GpuStack.Lib.Assoc

/-!
# DevicePlugin/Claims — what a container holds, and the three records of it

An Allocate leaves its grant in two places: a *reservation* in the memory of the device manager, at
once, and the allocation annotation of the Pod, by a patch that lands later.  A grant taken back
after its patch landed leaves a third record until the compensating write lands: a *pending
release*, with the claim that write will put back.

`priorClaimOf` reads the three in that order, the annotation off the copy of the Pod the informer
has.  `patchAllocatingPod` and `unpatchAllocatingPod` rewrite the whole annotation from that copy, so
both overlay the reservations of the Pod's other containers.
-/

namespace GpuStack

/-- Where a claim is filed. -/
structure ReservationKey where
  podUID : String
  container : String
deriving DecidableEq, Repr

/-- What a container holds: an allocation that names some device, and the device IDs it was made
under.  A reservation is one, and so is what a pending release puts back. -/
abbrev Claim := { a : ContainerAllocation // a.devices.groups ≠ [] }

/-- An allocation that names no device is no claim. -/
def ContainerAllocation.claim (a : ContainerAllocation) : Option Claim :=
  if h : a.devices.groups ≠ [] then some ⟨a, h⟩ else none

/-- The in-process tables.  A pending release has the claim to restore, `none` to remove the
entry. -/
structure DevicesReconciler where
  reservations : AList fun _ : ReservationKey => Claim := ∅
  pendingReleases : AList fun _ : ReservationKey => Option Claim := ∅
deriving DecidableEq

namespace DevicesReconciler

variable (r : DevicesReconciler)

/-! ## Reservations -/

/-- Record what a container was allocated.  Nothing is recorded for an empty UID, an empty container
name or an empty allocation. -/
def reserveDevices (podUID container : String) (allocated : DevicesStatus)
    (deviceIDs : List String) : DevicesReconciler :=
  if podUID = "" ∨ container = "" then r else
    match ContainerAllocation.claim ⟨allocated, deviceIDs⟩ with
    | none => r
    | some claim => { r with reservations := r.reservations.insert ⟨podUID, container⟩ claim }

/-- The reservation of one container. -/
def reservedDevices (podUID container : String) : Option Claim :=
  r.reservations.lookup ⟨podUID, container⟩

def releaseReservation (podUID container : String) : DevicesReconciler :=
  { r with reservations := r.reservations.erase ⟨podUID, container⟩ }

/-- The container a key names in one Pod. -/
def containerIn (podUID : String) (k : ReservationKey) : Option String :=
  if k.podUID = podUID then some k.container else none

/-- The reservations of one Pod, by container. -/
def reservationsFor (podUID : String) : PodAllocations :=
  Assoc.pull (containerIn podUID) Subtype.val r.reservations

/-- The mode an accelerator is reserved in, `none` when no reservation names it. -/
def reservedModeForResource (res : Resource) : DeviceAllocationMode :=
  match (r.reservations.entries.flatMap fun e => e.2.val.devices.rows).find?
      (fun row => row.1 = res && row.2.mode ≠ .none) with
  | some row => row.2.mode
  | none => .none

/-- The placements the reservations claim, by accelerator. -/
def reservedPhysicalOccupied : Placements :=
  (r.reservations.entries.foldl
    (fun maps e => accumulatePhysicalOccupied e.2.val.devices maps) (∅, ∅)).1

/-! ## Pending releases -/

/-- Remember a compensating write that did not land. -/
def recordPendingRelease (podUID container : String) (prior : Option Claim) : DevicesReconciler :=
  if podUID = "" ∨ container = "" then r else
    { r with pendingReleases := r.pendingReleases.insert ⟨podUID, container⟩ prior }

def dropPendingRelease (podUID container : String) : DevicesReconciler :=
  { r with pendingReleases := r.pendingReleases.erase ⟨podUID, container⟩ }

def peekPendingRelease (podUID container : String) : Option (Option Claim) :=
  r.pendingReleases.lookup ⟨podUID, container⟩

/-! ## The tables after an operation -/

variable {r}

variable {podUID container : String} {deviceIDs : List String} {allocated : DevicesStatus}
  {prior : Option Claim}

theorem reservations_reserveDevices (hu : podUID ≠ "") (hc : container ≠ "")
    (ha : allocated.groups ≠ []) :
    (r.reserveDevices podUID container allocated deviceIDs).reservations
      = r.reservations.insert ⟨podUID, container⟩ ⟨⟨allocated, deviceIDs⟩, ha⟩ := by
  simp [reserveDevices, ContainerAllocation.claim, hu, hc, ha]

@[simp] theorem pendingReleases_reserveDevices :
    (r.reserveDevices podUID container allocated deviceIDs).pendingReleases
      = r.pendingReleases := by
  unfold reserveDevices
  split
  · rfl
  · split <;> rfl

theorem reservedDevices_reserveDevices_ne {u c : String}
    (h : (⟨u, c⟩ : ReservationKey) ≠ ⟨podUID, container⟩) :
    (r.reserveDevices podUID container allocated deviceIDs).reservedDevices u c
      = r.reservedDevices u c := by
  unfold reserveDevices
  split
  · rfl
  · split
    · rfl
    · exact AList.lookup_insert_ne h

@[simp] theorem reservations_recordPendingRelease :
    (r.recordPendingRelease podUID container prior).reservations = r.reservations := by
  unfold recordPendingRelease
  split <;> rfl

theorem peekPendingRelease_recordPendingRelease (hu : podUID ≠ "") (hc : container ≠ "") :
    (r.recordPendingRelease podUID container prior).peekPendingRelease podUID container
      = some prior := by
  simp [peekPendingRelease, recordPendingRelease, hu, hc]

/-- The two tables agree on every container but one. -/
def SameBut (podUID container : String) (r r' : DevicesReconciler) : Prop :=
  ∀ u c, (⟨u, c⟩ : ReservationKey) ≠ ⟨podUID, container⟩ →
    r'.reservedDevices u c = r.reservedDevices u c
      ∧ r'.peekPendingRelease u c = r.peekPendingRelease u c

variable {r₁ r₂ : DevicesReconciler} {podUID container : String}

theorem SameBut.refl : SameBut podUID container r r := fun _ _ _ => ⟨rfl, rfl⟩

theorem SameBut.trans (h : SameBut podUID container r r₁) (h' : SameBut podUID container r₁ r₂) :
    SameBut podUID container r r₂ := fun u c hne =>
  ⟨(h' u c hne).1.trans (h u c hne).1, (h' u c hne).2.trans (h u c hne).2⟩

theorem sameBut_reserveDevices :
    SameBut podUID container r (r.reserveDevices podUID container allocated deviceIDs) :=
  fun _ _ hne => ⟨reservedDevices_reserveDevices_ne hne, by simp [peekPendingRelease]⟩

theorem sameBut_releaseReservation :
    SameBut podUID container r (r.releaseReservation podUID container) :=
  fun _ _ hne => ⟨AList.lookup_erase_ne hne, rfl⟩

theorem sameBut_dropPendingRelease :
    SameBut podUID container r (r.dropPendingRelease podUID container) :=
  fun _ _ hne => ⟨rfl, AList.lookup_erase_ne hne⟩

theorem sameBut_recordPendingRelease :
    SameBut podUID container r (r.recordPendingRelease podUID container prior) := by
  intro u c hne
  unfold recordPendingRelease
  split
  · exact ⟨rfl, rfl⟩
  · exact ⟨rfl, AList.lookup_insert_ne hne⟩

end DevicesReconciler

/-! ## Reading a claim -/

/-- The allocation the annotation of this copy of the Pod has for a container. -/
def recordOf (pod : Pod) (container : String) : Option ContainerAllocation :=
  (allocatedAcceleratorsOf pod).bind (·.lookup container)

/-- The claim the annotation of this copy of the Pod has for a container. -/
def recordedClaim (pod : Pod) (container : String) : Option Claim :=
  (recordOf pod container).bind ContainerAllocation.claim

/-- The allocation a container already holds: its reservation, then the annotation. -/
def priorAllocationOf (r : DevicesReconciler) (pod : Pod) (container : String) :
    Option DevicesStatus :=
  ((r.reservedDevices pod.uid container).or (recordedClaim pod container)).map (·.val.devices)

/-- The claim of a container without a reservation: a give-back still pending, then the
annotation. -/
def unreservedClaimOf (r : DevicesReconciler) (pod : Pod) (container : String) : Option Claim :=
  match r.peekPendingRelease pod.uid container with
  | some prior => prior
  | none => recordedClaim pod container

/-- **The claim a container already holds**: its reservation first. -/
def priorClaimOf (r : DevicesReconciler) (pod : Pod) (container : String) : Option Claim :=
  match r.reservedDevices pod.uid container with
  | some held => some held
  | none => unreservedClaimOf r pod container

/-- A claim is read off the two tables at one container only. -/
theorem priorClaimOf_congr {r r' : DevicesReconciler} {pod : Pod} {container : String}
    (h : r'.reservedDevices pod.uid container = r.reservedDevices pod.uid container
      ∧ r'.peekPendingRelease pod.uid container = r.peekPendingRelease pod.uid container) :
    priorClaimOf r' pod container = priorClaimOf r pod container := by
  simp only [priorClaimOf, unreservedClaimOf, h.1, h.2]

/-! ## Writing the annotation -/

/-- The records a rewrite of the annotation keeps: the copy's own, overlaid with the reservations of
the other containers. -/
def siblingRecords (r : DevicesReconciler) (pod : Pod) (container : String)
    (allocations : PodAllocations) : PodAllocations :=
  (r.reservationsFor pod.uid).erase container ∪ allocations

/-- The annotation that records one container's allocation.  `none` when the copy's own cannot be
read. -/
def patchedAnnotation (r : DevicesReconciler) (pod : Pod) (container : String)
    (record : ContainerAllocation) : Option AllocationAnnotation :=
  (allocatedAcceleratorsOf pod).map fun allocations =>
    .recorded ((siblingRecords r pod container allocations).insert container record)

/-- Put the prior claim of a container back, or take its record out. -/
def restoreRecord (container : String) (prior : Option Claim) (allocations : PodAllocations) :
    PodAllocations :=
  match prior with
  | some claim => allocations.insert container claim.val
  | none => allocations.erase container

/-- The annotation that takes one container's allocation back, none at all when no record is
left. -/
def unpatchedAnnotation (r : DevicesReconciler) (pod : Pod) (container : String)
    (prior : Option Claim) : Option AllocationAnnotation :=
  (allocatedAcceleratorsOf pod).map fun allocations =>
    let left := restoreRecord container prior (siblingRecords r pod container allocations)
    if left.keys = [] then .absent else .recorded left

/-- Record one container's allocation.  A write that lands supersedes the give-back still pending for
the container. -/
def patchAllocatingPod (r : DevicesReconciler) (pod : Pod) (container : String)
    (record : ContainerAllocation) (lands : Bool) :
    DevicesReconciler × Option AllocationAnnotation :=
  match patchedAnnotation r pod container record with
  | none => (r, none)
  | some annotation =>
    if lands then (r.dropPendingRelease pod.uid container, some annotation) else (r, none)

/-- Take one container's allocation back.  A write that fails is remembered. -/
def unpatchAllocatingPod (r : DevicesReconciler) (pod : Pod) (container : String)
    (prior : Option Claim) (lands : Bool) : DevicesReconciler × Option AllocationAnnotation :=
  match unpatchedAnnotation r pod container prior with
  | none => (r, none)
  | some annotation =>
    if lands then (r, some annotation) else (r.recordPendingRelease pod.uid container prior, none)

end GpuStack
