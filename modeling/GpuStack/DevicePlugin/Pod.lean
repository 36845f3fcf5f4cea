import GpuStack.Device.Api

/-!
# DevicePlugin/Pod — Pods, and the allocation record they carry

An Allocate leaves what it granted on the Pod, in one annotation keyed by container name.  The
annotation is the durable record of who holds what: the ledger is rebuilt from it, and a restarted
device manager knows nothing else.

`PodAllocations.aggregate` is the Pod-wide reading of the record and `heldAllocation` the part of it
a Pod still holds once its phase is terminal.  Both are read here through the flat list of the
accelerators they name (`rows`): aggregation only reorders it, termination only filters it.
-/

namespace GpuStack

open List

/-! ## Resource names and containers -/

/-- A resource name, read by its shape: `<base>`, `<base>.shared`, and so on.  The last case is a
name outside every accelerator family. -/
inductive ResourceName
  | exclusive (base : String)
  | shared (base : String)
  | sliced (base : String)
  | slicedUnits (base : String)
  | slicedMemoryPercentage (base : String)
  | slicedCoresPercentage (base : String)
  | slicedMemoryMib (base : String)
  | partitioned (base : String)
  | partitionedUnits (base : String)
  | partitionedProfile (base profile : String)
  | visibility (manufacturer : String)
  | other (name : String)
deriving DecidableEq, Repr

/-- A resource list: quantities by name. -/
abbrev ResourceList := AList fun _ : ResourceName => ℤ

structure Container where
  name : String
  limits : ResourceList := ∅
  requests : ResourceList := ∅
deriving DecidableEq

/-! ## The record -/

/-- What was allocated to one container, and the device IDs it was allocated under. -/
structure ContainerAllocation where
  devices : DevicesStatus
  deviceIDs : List String := []
deriving DecidableEq, Repr

/-- The value of the allocation annotation, by container name. -/
abbrev PodAllocations := AList fun _ : String => ContainerAllocation

/-- The allocation annotation of a Pod.  `null` is the bare JSON literal; `nulls` are the containers
whose recorded value is one, which decodes to an empty record. -/
inductive AllocationAnnotation
  | absent
  | null
  | unreadable
  | recorded (allocations : PodAllocations) (nulls : List String := [])
deriving DecidableEq

inductive PodPhase
  | unset
  | pending
  | running
  | succeeded
  | failed
  | unknown
deriving DecidableEq, Repr

/-- The namespace and the name of an object. -/
structure NamespacedName where
  space : String := ""
  name : String := ""
deriving DecidableEq, Repr

structure Pod where
  uid : String
  key : NamespacedName := {}
  creationTimestamp : ℤ := 0
  phase : PodPhase := .pending
  nodeName : String := ""
  annotation : AllocationAnnotation := .absent
  initContainers : List Container := []
  containers : List Container := []
deriving DecidableEq

/-- A Pod's allocation records; an unannotated Pod has none, an unreadable annotation is an
error. -/
def allocatedAcceleratorsOf (pod : Pod) : Option PodAllocations :=
  match pod.annotation with
  | .absent | .null => some ∅
  | .unreadable => none
  | .recorded allocations _ => some allocations

/-! ## The Pod-wide allocation -/

/-- Fold one more group in: under the group of the same ID when there is one, at the end
otherwise. -/
def mergeGroup (src : DevicesAllocationGroup) :
    List DevicesAllocationGroup → List DevicesAllocationGroup
  | [] => [src]
  | g :: gs =>
    if g.id = src.id then { g with accelerators := g.accelerators ++ src.accelerators } :: gs
    else g :: mergeGroup src gs

/-- The container names of a record, in order. -/
def PodAllocations.names (a : PodAllocations) : List String := a.keys.insertionSort (· ≤ ·)

/-- The groups recorded for one container. -/
def PodAllocations.groupsOf (a : PodAllocations) (name : String) : List DevicesAllocationGroup :=
  match a.lookup name with
  | some c => c.devices.groups
  | none => []

/-- **The Pod-wide allocation**: every container's record, containers in name order. -/
def PodAllocations.aggregate (a : PodAllocations) : DevicesStatus :=
  ⟨(a.names.flatMap a.groupsOf).foldl (fun acc src => mergeGroup src acc) []⟩

theorem rows_append (gs gs' : List DevicesAllocationGroup) :
    (⟨gs ++ gs'⟩ : DevicesStatus).rows
      = (⟨gs⟩ : DevicesStatus).rows ++ (⟨gs'⟩ : DevicesStatus).rows := by
  simp [DevicesStatus.rows]

theorem rows_mergeGroup (src : DevicesAllocationGroup) :
    ∀ gs : List DevicesAllocationGroup,
      (⟨mergeGroup src gs⟩ : DevicesStatus).rows.Perm
        ((⟨gs⟩ : DevicesStatus).rows ++ (⟨[src]⟩ : DevicesStatus).rows)
  | [] => by simp [mergeGroup]
  | g :: gs => by
      unfold mergeGroup
      split
      · rename_i hid
        simp only [rows_cons, rows_nil, map_append, append_nil, append_assoc, hid]
        exact List.Perm.append_left _ perm_append_comm
      · rw [rows_cons, rows_cons, append_assoc]
        exact (rows_mergeGroup src gs).append_left _

/-- Aggregation reorders the accelerators of the containers and changes none. -/
theorem rows_foldl_mergeGroup (srcs acc : List DevicesAllocationGroup) :
    (⟨srcs.foldl (fun acc src => mergeGroup src acc) acc⟩ : DevicesStatus).rows.Perm
      ((⟨acc⟩ : DevicesStatus).rows ++ (⟨srcs⟩ : DevicesStatus).rows) := by
  induction srcs generalizing acc with
  | nil => simp
  | cons src srcs ih =>
    refine (ih (mergeGroup src acc)).trans ?_
    rw [← singleton_append, rows_append, ← append_assoc]
    exact (rows_mergeGroup src acc).append_right _

theorem rows_aggregate_perm (a : PodAllocations) :
    a.aggregate.rows.Perm (⟨a.names.flatMap a.groupsOf⟩ : DevicesStatus).rows :=
  rows_foldl_mergeGroup _ []

/-- An accelerator of the Pod-wide allocation is an accelerator of some container's record. -/
theorem mem_rows_aggregate {a : PodAllocations} {row : Resource × AcceleratorAllocation} :
    row ∈ a.aggregate.rows ↔ ∃ name c, a.lookup name = some c ∧ row ∈ c.devices.rows := by
  rw [(rows_aggregate_perm a).mem_iff]
  simp only [DevicesStatus.rows, mem_flatMap, PodAllocations.names, PodAllocations.groupsOf,
    mem_insertionSort]
  constructor
  · rintro ⟨g, ⟨name, -, hg⟩, hrow⟩
    cases hl : a.lookup name with
    | none => simp [hl] at hg
    | some c => exact ⟨name, c, hl, g, by simpa [hl] using hg, hrow⟩
  · rintro ⟨name, c, hl, g, hg, hrow⟩
    exact ⟨g, ⟨name, AList.lookup_isSome.mp (by simp [hl]), by simpa [hl] using hg⟩, hrow⟩

variable {g : DevicesAllocationGroup}

theorem mem_mergeGroup {src : DevicesAllocationGroup} :
    ∀ {gs : List DevicesAllocationGroup}, g ∈ mergeGroup src gs →
      ∃ g' ∈ src :: gs, g'.id = g.id ∧ g'.manufacturer = g.manufacturer
  | [], h => ⟨g, h, rfl, rfl⟩
  | g₀ :: gs, h => by
      unfold mergeGroup at h
      split at h
      · obtain rfl | h := mem_cons.mp h
        · exact ⟨g₀, by simp, rfl, rfl⟩
        · exact ⟨g, by simp [h], rfl, rfl⟩
      · obtain rfl | h := mem_cons.mp h
        · exact ⟨g, by simp, rfl, rfl⟩
        · obtain ⟨g', hg', hsame⟩ := mem_mergeGroup h
          refine ⟨g', ?_, hsame⟩
          simp only [mem_cons] at hg' ⊢
          tauto

theorem mem_foldl_mergeGroup {srcs acc : List DevicesAllocationGroup}
    (h : g ∈ srcs.foldl (fun acc src => mergeGroup src acc) acc) :
    ∃ g' ∈ acc ++ srcs, g'.id = g.id ∧ g'.manufacturer = g.manufacturer := by
  induction srcs generalizing acc with
  | nil => exact ⟨g, by simpa using h, rfl, rfl⟩
  | cons src srcs ih =>
    obtain ⟨g', hg', hid, hman⟩ := ih h
    obtain hg' | hg' := mem_append.mp hg'
    · obtain ⟨g'', hg'', hid', hman'⟩ := mem_mergeGroup hg'
      refine ⟨g'', ?_, hid'.trans hid, hman'.trans hman⟩
      simp only [mem_cons, mem_append] at hg'' ⊢
      tauto
    · exact ⟨g', by simp [hg'], hid, hman⟩

/-- A group of the Pod-wide allocation is headed as some container's record heads it. -/
theorem exists_group_of_mem_aggregate {a : PodAllocations}
    (h : g ∈ a.aggregate.groups) :
    ∃ name c, a.lookup name = some c ∧
      ∃ g' ∈ c.devices.groups, g'.id = g.id ∧ g'.manufacturer = g.manufacturer := by
  obtain ⟨g', hg', hsame⟩ := mem_foldl_mergeGroup h
  obtain ⟨name, -, hname⟩ := mem_flatMap.mp (by simpa using hg')
  cases hl : a.lookup name with
  | none => simp [PodAllocations.groupsOf, hl] at hname
  | some c => exact ⟨name, c, hl, g', by simpa [PodAllocations.groupsOf, hl] using hname, hsame⟩

/-- What the ledger reads off a Pod. -/
def allocatedStatusOf (pod : Pod) : Option DevicesStatus :=
  (allocatedAcceleratorsOf pod).map PodAllocations.aggregate

/-! ## What a terminated Pod still holds -/

/-- The manufacturers whose logical slice outlives its containers. -/
def statefulSlicedManufacturers : List String := ["metax", "cambricon"]

def podTerminated (pod : Pod) : Bool :=
  pod.phase = .succeeded || pod.phase = .failed

/-- An accelerator stays held once the Pod's phase is terminal: a physical record always does, a
whole accelerator never, a slice only when it is a driver object. -/
def heldAfterTermination (manufacturer : String) (acc : AcceleratorAllocation) : Bool :=
  if acc.allocatedPhysicalProfile ≠ "" ∨ acc.allocatedPhysicalPlacements ≠ [] then true else
    match acc.mode with
    | .exclusive | .shared => false
    | .sliced => manufacturer ∈ statefulSlicedManufacturers
    | _ => true

/-- The part of a Pod's recorded allocation the Pod still holds.  `released` is the switch that
lets a terminal Pod release anything at all. -/
def heldAllocation (released : Bool) (pod : Pod) (status : DevicesStatus) : DevicesStatus :=
  if !podTerminated pod || !released then status else
    ⟨(status.groups.map fun g =>
        { g with accelerators := g.accelerators.filter (heldAfterTermination g.manufacturer) }).filter
      fun g => g.accelerators ≠ []⟩

/-- Termination only drops accelerators. -/
theorem exists_group_of_mem_heldAllocation {released : Bool} {pod : Pod} {status : DevicesStatus} (h : g ∈ (heldAllocation released pod status).groups) :
    ∃ g' ∈ status.groups, g'.id = g.id ∧ g'.manufacturer = g.manufacturer ∧
      g.accelerators ⊆ g'.accelerators := by
  unfold heldAllocation at h
  split at h
  · exact ⟨g, h, rfl, rfl, fun _ => id⟩
  · obtain ⟨g', hg', rfl⟩ := mem_map.mp (mem_of_mem_filter h)
    exact ⟨g', hg', rfl, rfl, filter_subset_self _⟩

end GpuStack
