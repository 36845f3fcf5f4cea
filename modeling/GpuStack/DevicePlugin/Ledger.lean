import GpuStack.Device.Placement
import GpuStack.Device.Rows
import GpuStack.DevicePlugin.Pod

/-!
# DevicePlugin/Ledger — rebuilding the ledger from Pod annotations

`buildDesiredStatus` seeds one free row per accelerator of the inventory and folds every Pod's held
record into it.  The fold writes through pointers into the shared ledger: when a Pod's record asks
for an accelerator in another mode than the ledger has, the fold stops *at that accelerator* and
reports the conflict, and what the same record charged before it stays charged.
-/

namespace GpuStack

/-- An accelerator of a record, under the resource it is. -/
abbrev Entry := Resource × AcceleratorAllocation

/-! ## The seed -/

/-- One free row per accelerator of the inventory. -/
def initDesiredStatus (spec : List DevicesGroup) : DevicesStatus :=
  ⟨spec.map fun g =>
    { id := g.id
      manufacturer := g.manufacturer
      accelerators := g.accelerators.map fun a =>
        { id := a.id, index := a.index, mode := .none, remaining := resourceMaxUnits } }⟩

/-! ## Merging one record -/

/-- A record asked for an accelerator in a mode other than the one it is held in. -/
structure ModeConflict where
  res : Resource
  held : DeviceAllocationMode
  asked : DeviceAllocationMode
deriving DecidableEq, Repr

/-- A ledger row after one accelerator of a record is charged to it. -/
def chargeRow (src dst : AcceleratorAllocation) : AcceleratorAllocation :=
  { dst with
    mode := src.mode
    remaining := max (dst.remaining - src.allocated) 0
    allocatedSlices :=
      if src.mode = .sliced then dst.allocatedSlices + 1 else dst.allocatedSlices }

/-- The row cannot take an accelerator of this mode. -/
def conflicts (src dst : AcceleratorAllocation) : Bool :=
  dst.mode ≠ .none && dst.mode ≠ src.mode

/-- Charge a record's accelerators one by one.  An accelerator outside the inventory is passed over;
a conflict ends the walk, with the ledger as the walk has left it. -/
def mergeEntries : List Entry → DevicesStatus → DevicesStatus × Option ModeConflict
  | [], st => (st, none)
  | (res, src) :: es, st =>
    match st.row res with
    | none => mergeEntries es st
    | some dst =>
      if conflicts src dst then (st, some ⟨res, dst.mode, src.mode⟩)
      else mergeEntries es (st.updateRow res (chargeRow src))

/-- Merge a Pod-wide allocation into the ledger. -/
def applyAllocatedStatus (allocatedStatus remainingStatus : DevicesStatus) :
    DevicesStatus × Option ModeConflict :=
  mergeEntries allocatedStatus.rows remainingStatus

/-! ## The hardware-partition ledger -/

/-- Occupied placements, by accelerator. -/
abbrev Placements := AList fun _ : Resource => List AcceleratorPlacement

/-- Live instances, by accelerator and profile. -/
abbrev ProfileCounts := AList fun _ : Resource => AList fun _ : String => ℤ

/-- A physical record is a profile together with the placements its instance occupies. -/
def isPhysicalRecord (acc : AcceleratorAllocation) : Bool :=
  acc.allocatedPhysicalProfile ≠ "" && acc.allocatedPhysicalPlacements ≠ []

/-- Fold one accelerator's physical record into the two maps. -/
def occupyPhysical (maps : Placements × ProfileCounts) (e : Entry) : Placements × ProfileCounts :=
  if isPhysicalRecord e.2 then
    (maps.1.insert e.1 ((maps.1.lookup e.1).getD [] ++ e.2.allocatedPhysicalPlacements),
      maps.2.insert e.1
        (Tally.bump ((maps.2.lookup e.1).getD ∅) e.2.allocatedPhysicalProfile))
  else maps

def accumulatePhysicalOccupied (podStatus : DevicesStatus) (maps : Placements × ProfileCounts) :
    Placements × ProfileCounts :=
  podStatus.rows.foldl occupyPhysical maps

/-- The legal placements of every profile that has any. -/
def possiblePlacements (profiles : List AcceleratorPhysicalSlicedProfile) :
    AList fun _ : String => List AcceleratorPlacement :=
  profiles.foldl
    (fun possible p => if p.placements ≠ [] then possible.insert p.name p.placements else possible) ∅

/-- Set the two profile columns of one row. -/
def foldPhysicalRow (maps : Placements × ProfileCounts) (grp : DevicesGroup) (acc : Accelerator)
    (dst : AcceleratorAllocation) : AcceleratorAllocation :=
  if acc.status.physicalSliced.profiles = [] then dst else
    { dst with
      allocatedProfiles := profileCountSlice ((maps.2.lookup ⟨grp.id, acc.id⟩).getD ∅)
      remainingProfiles := profileCountSlice
        (computeRemainingProfiles ((maps.1.lookup ⟨grp.id, acc.id⟩).getD [])
          (possiblePlacements acc.status.physicalSliced.profiles)) }

/-- Set the profile columns of the whole ledger, whose rows stand where the inventory's do. -/
def foldPhysicalLedger (spec : List DevicesGroup) (status : DevicesStatus)
    (maps : Placements × ProfileCounts) : DevicesStatus :=
  ⟨List.zipWith (fun grp dst =>
    { dst with
      accelerators := List.zipWith (foldPhysicalRow maps grp) grp.accelerators dst.accelerators })
    spec status.groups⟩

/-! ## The fold over the Pods -/

/-- What the fold carries from Pod to Pod. -/
structure FoldState where
  status : DevicesStatus
  maps : Placements × ProfileCounts := (∅, ∅)
deriving DecidableEq

/-- The stage of the fold that failed on a Pod. -/
inductive FoldFailure
  | read
  | merge (conflict : ModeConflict)
deriving DecidableEq, Repr

/-- What a Pod brings to the ledger: the held part of its record, `none` when unreadable. -/
def heldStatusOf (released : Bool) (pod : Pod) : Option DevicesStatus :=
  (allocatedStatusOf pod).map (heldAllocation released pod)

/-- One Pod.  A failure drops the rest of that Pod's claim and is reported beside the state. -/
def foldPod (released : Bool) (st : FoldState) (pod : Pod) : FoldState × Option FoldFailure :=
  match heldStatusOf released pod with
  | none => (st, some .read)
  | some held =>
    match applyAllocatedStatus held st.status with
    | (status, some conflict) => ({ st with status }, some (.merge conflict))
    | (status, none) => (⟨status, accumulatePhysicalOccupied held st.maps⟩, none)

/-- The ordinary fold keeps folding past every failure. -/
def foldPods (released : Bool) (pods : List Pod) (st : FoldState) : FoldState :=
  pods.foldl (fun st pod => (foldPod released st pod).1) st

/-- **The rebuilt ledger**, and the live Pods. -/
def buildDesiredStatus (released : Bool) (spec : List DevicesGroup) (pods : List Pod) :
    DevicesStatus × List String :=
  let st := foldPods released pods ⟨initDesiredStatus spec, ∅, ∅⟩
  (foldPhysicalLedger spec st.status st.maps, pods.map (·.uid))

end GpuStack
