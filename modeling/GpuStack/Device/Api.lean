import Mathlib

/-!
# Device/Api — the Devices object: what a node has, and what its ledger says of it

A `Devices` object lists a node's accelerators twice.  Its *spec* is the inventory the detector
reported: groups of accelerators of one model, each with the slicing it is capable of.  Its *status*
is the ledger: the same groups, each accelerator with the mode it is held in and the units left.
A Pod's allocation record is written in the type of the second list.

Units are `int32` in the source and integers here; no modelled operation leaves the range.  Fields
no modelled function reads are left out.
-/

namespace GpuStack

/-- The denominator every accelerator's units are counted in. -/
def resourceMaxUnits : ℤ := 1600000

/-- How many owners may share one accelerator. -/
def sharedResourceMaxSize : ℤ := 10

/-- The mode an accelerator is held in. -/
inductive DeviceAllocationMode
  | none
  | exclusive
  | shared
  | sliced
  | partitioned
  | visibility
deriving DecidableEq, Repr

/-- One contiguous run `[start, start + length)` an allocation occupies on an accelerator. -/
structure AcceleratorPlacement where
  start : ℤ
  length : ℤ
deriving DecidableEq, Repr

/-! ## The inventory -/

/-- A hardware partition profile, with its legal placements on an empty accelerator. -/
structure AcceleratorPhysicalSlicedProfile where
  name : String
  memoryMib : ℤ := 0
  placements : List AcceleratorPlacement := []
deriving DecidableEq, Repr

/-- An accelerator's logical (software) slicing capability. -/
structure AcceleratorLogicalSliced where
  count : ℤ := 0
deriving DecidableEq, Repr

/-- An accelerator's physical (hardware) slicing capability. -/
structure AcceleratorPhysicalSliced where
  profiles : List AcceleratorPhysicalSlicedProfile := []
  count : ℤ := 0
deriving DecidableEq, Repr

/-- What the detector observed of an accelerator. -/
structure AcceleratorStatus where
  unhealthy : Bool := false
  logicalSliced : AcceleratorLogicalSliced := {}
  physicalSliced : AcceleratorPhysicalSliced := {}
deriving DecidableEq, Repr

structure Accelerator where
  id : String
  index : ℕ := 0
  status : AcceleratorStatus := {}
deriving DecidableEq, Repr

/-- A group of accelerators of one model. -/
structure DevicesGroup where
  id : String
  manufacturer : String
  memory : ℤ := 0
  accelerators : List Accelerator := []
deriving DecidableEq, Repr

/-! ## The ledger -/

/-- A count of instances of one partition profile. -/
structure AcceleratorProfileCount where
  name : String
  count : ℤ
deriving DecidableEq, Repr

/-- One accelerator of the ledger, or of a Pod's record.  The ledger fills `remaining`,
`allocatedSlices` and the two profile columns; a record fills `allocated` and the placements. -/
structure AcceleratorAllocation where
  id : String
  index : ℕ := 0
  mode : DeviceAllocationMode := .none
  allocated : ℤ := 0
  remaining : ℤ := 0
  allocatedSlices : ℤ := 0
  allocatedProfiles : List AcceleratorProfileCount := []
  remainingProfiles : List AcceleratorProfileCount := []
  allocatedPhysicalProfile : String := ""
  allocatedPhysicalPlacements : List AcceleratorPlacement := []
  allocatedPhysicalID : String := ""
  allocatedLogicalPlacements : List AcceleratorPlacement := []
deriving DecidableEq, Repr

structure DevicesAllocationGroup where
  id : String
  manufacturer : String
  accelerators : List AcceleratorAllocation := []
deriving DecidableEq, Repr

structure DevicesStatus where
  groups : List DevicesAllocationGroup := []
deriving DecidableEq, Repr

structure Devices where
  spec : List DevicesGroup
  status : DevicesStatus := {}
deriving DecidableEq, Repr

/-- How Kubernetes sees one device: the group it was detected in, and its own ID there. -/
structure Resource where
  group : String
  device : String
deriving DecidableEq, Repr

/-- `<group>:<device>`. -/
def Resource.toString (r : Resource) : String := r.group ++ ":" ++ r.device

/-! ## Walking the two lists

Every loop of the source over groups and, inside, over accelerators is a walk over one of these
flat lists, in the same order. -/

/-- The accelerators of a ledger, each under the resource it is. -/
def DevicesStatus.rows (s : DevicesStatus) : List (Resource × AcceleratorAllocation) :=
  s.groups.flatMap fun g => g.accelerators.map fun a => (⟨g.id, a.id⟩, a)

/-- The accelerators of an inventory, each under the resource it is and with its group. -/
def specCards (spec : List DevicesGroup) : List (Resource × DevicesGroup × Accelerator) :=
  spec.flatMap fun g => g.accelerators.map fun a => (⟨g.id, a.id⟩, g, a)

@[simp] theorem rows_nil : (⟨[]⟩ : DevicesStatus).rows = [] := rfl

@[simp] theorem rows_cons (g : DevicesAllocationGroup) (gs : List DevicesAllocationGroup) :
    (⟨g :: gs⟩ : DevicesStatus).rows
      = (g.accelerators.map fun a => ((⟨g.id, a.id⟩ : Resource), a))
        ++ (⟨gs⟩ : DevicesStatus).rows := rfl

@[simp] theorem specCards_nil : specCards [] = [] := rfl

@[simp] theorem specCards_cons (g : DevicesGroup) (gs : List DevicesGroup) :
    specCards (g :: gs)
      = (g.accelerators.map fun a => ((⟨g.id, a.id⟩ : Resource), g, a)) ++ specCards gs := rfl

/-- The identities of an inventory's accelerators, in order. -/
def specResources (spec : List DevicesGroup) : List Resource := (specCards spec).map (·.1)

/-- The mode the ledger records for an accelerator, `none` when it is free or absent. -/
def statusModeOf (s : DevicesStatus) (res : Resource) : DeviceAllocationMode :=
  match s.rows.find? (fun row => row.1 = res) with
  | some row => row.2.mode
  | none => .none

/-- The capability the inventory reports for an accelerator. -/
def capabilityOf (spec : List DevicesGroup) (res : Resource) : Option AcceleratorStatus :=
  ((specCards spec).find? (fun card => card.1 = res)).map (·.2.2.status)

/-! ## What an accelerator can serve -/

/-- The accelerator is in a hardware partitioning mode. -/
def isPartitioned (status : AcceleratorStatus) : Bool := 0 < status.physicalSliced.count

/-- The accelerator offers logical slices, and is not in a partitioning mode. -/
def isLogicallySliceable (status : AcceleratorStatus) : Bool :=
  0 < status.logicalSliced.count && !isPartitioned status

/-- The accelerator can be held whole, exclusively or shared. -/
def isWholeAcceleratorCapable (status : AcceleratorStatus) : Bool := !isPartitioned status

/-- How many more logical slices an accelerator hosting `allocatedSlices` can take. -/
def logicalSlotsFree (status : AcceleratorStatus) (allocatedSlices : ℤ) : ℤ :=
  if isLogicallySliceable status then status.logicalSliced.count - allocatedSlices else 0

/-- A sliceable accelerator can also be held whole. -/
theorem isWholeAcceleratorCapable_of_sliceable {status : AcceleratorStatus}
    (h : isLogicallySliceable status = true) : isWholeAcceleratorCapable status = true := by
  simp only [isLogicallySliceable, Bool.and_eq_true] at h
  exact h.2

end GpuStack
