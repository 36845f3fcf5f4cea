import GpuStack.Device.Api

/-!
# Admission/Demand — what a Workload asks of the cards, and the cards it may ask

The node-devices check compares a Workload's demands with the cards of the pool its flavors reach.
A demand asks one family for a number of cards (of slices, for the sliced family), under the flavor
its podset was assigned and, when the Pods are already placed, on one node.  A card is the join of
its ledger row with its capability, stamped with the flavors that cover it.

Counts and units of a demand are natural numbers: the source builds them with `clampInt32`, which
never gives a negative one.
-/

namespace GpuStack

/-! ## Demands -/

/-- The accelerator families a demand can be of, in the order of their names. -/
inductive ResourceFamily
  | exclusive
  | partitioned
  | shared
  | sliced
deriving DecidableEq, Repr

/-- The place of a family in name order. -/
def ResourceFamily.rank : ResourceFamily → ℕ
  | .exclusive => 0
  | .partitioned => 1
  | .shared => 2
  | .sliced => 3

/-- So many containers that each need so many distinct cards. -/
structure SharedNeed where
  cards : ℕ
  containers : ℕ
deriving DecidableEq, Repr

structure FamilyDemand where
  family : ResourceFamily
  cards : ℕ
  unitsPerCard : ℕ := 0
  profile : String := ""
  flavor : String
  podSets : List String := []
  sharedNeeds : List SharedNeed := []
  node : String := ""
deriving DecidableEq, Repr

/-- What demands are compared by, one after another: partitions first, then falling units, family
and node. -/
def FamilyDemand.key (d : FamilyDemand) : ℕ ×ₗ ℤ ×ₗ ℕ ×ₗ String :=
  toLex (if d.family = .partitioned then 0 else 1,
    toLex (-(d.unitsPerCard : ℤ), toLex (d.family.rank, d.node)))

/-- Most constrained first; a stable sort. -/
def sortDemands (demands : List FamilyDemand) : List FamilyDemand :=
  demands.insertionSort fun a b => a.key ≤ b.key

theorem perm_sortDemands (demands : List FamilyDemand) : (sortDemands demands).Perm demands :=
  List.perm_insertionSort _ _

/-! ## Cards -/

/-- A flavor's claim on a node: the accelerator key its node labels pin, and the batch size (`0` for
any, negative for none). -/
structure FlavorScope where
  flavor : String
  acceleratorKey : String
  acceleratorCount : ℤ := 0
deriving DecidableEq, Repr

/-- A node's Devices object with the flavors that matched the node. -/
structure ScopedDevices where
  devices : Devices
  scopes : List FlavorScope
  hostname : String
deriving DecidableEq, Repr

/-- A card: its ledger row, its capability and the flavors covering it. -/
structure CardLedger where
  manufacturer : String
  flavors : List String
  hostname : String
  capability : AcceleratorStatus
  mode : DeviceAllocationMode
  remaining : ℤ
  remainingProfiles : List AcceleratorProfileCount
  allocatedSlices : ℤ
deriving DecidableEq, Repr

/-- The card may serve the demand: its flavor covers the card, and so does its node if it names
one. -/
def CardLedger.coveredBy (c : CardLedger) (d : FamilyDemand) : Bool :=
  d.flavor ∈ c.flavors && (d.node = "" || c.hostname = d.node)

/-- `<manufacturer>-<group id>`. -/
def acceleratorKeyOf (manufacturer groupID : String) : String := manufacturer ++ "-" ++ groupID

/-- Capabilities by accelerator ID; of two under one ID the last is kept. -/
def capByID (spec : List DevicesGroup) : AList fun _ : String => AcceleratorStatus :=
  (spec.flatMap (·.accelerators)).foldl (fun m acc => m.insert acc.id acc.status) ∅

/-- The flavors covering every card of a group: their key is the group's, and their batch too. -/
def coveringFlavors (scopes : List FlavorScope) (g : DevicesAllocationGroup) : List String :=
  (scopes.filter fun s => s.acceleratorKey = acceleratorKeyOf g.manufacturer g.id &&
    (s.acceleratorCount = 0 || s.acceleratorCount = (g.accelerators.length : ℤ))).map (·.flavor)

/-- The cards of one node. -/
def nodeCards (sd : ScopedDevices) : List CardLedger :=
  sd.devices.status.groups.flatMap fun g => g.accelerators.map fun acc =>
    { manufacturer := g.manufacturer
      flavors := coveringFlavors sd.scopes g
      hostname := sd.hostname
      capability := ((capByID sd.devices.spec).lookup acc.id).getD {}
      mode := acc.mode
      remaining := acc.remaining
      remainingProfiles := acc.remainingProfiles
      allocatedSlices := acc.allocatedSlices }

/-- Every card of the pool, node by node. -/
def collectCards (pool : List ScopedDevices) : List CardLedger := pool.flatMap nodeCards

/-- The card's capability can serve the family. -/
def CardLedger.servesFamily (c : CardLedger) : ResourceFamily → Bool
  | .partitioned => isPartitioned c.capability
  | .sliced => isLogicallySliceable c.capability
  | .shared | .exclusive => isWholeAcceleratorCapable c.capability

/-- How many more logical slices the card can host. -/
def CardLedger.freeSlots (c : CardLedger) : ℤ := logicalSlotsFree c.capability c.allocatedSlices

/-- How many ownership shares the card can still grant. -/
def CardLedger.freeShares (c : CardLedger) : ℤ :=
  if !c.servesFamily .shared || (c.mode ≠ .none && c.mode ≠ .shared) then 0
  else c.remaining.tdiv (resourceMaxUnits / sharedResourceMaxSize)

/-- The units the card can still give a logical slice, `-1` when it can take none. -/
def CardLedger.freeSliceUnits (c : CardLedger) : ℤ :=
  if !c.servesFamily .sliced || (c.mode ≠ .none && c.mode ≠ .sliced) || c.freeSlots ≤ 0 then -1
  else c.remaining

end GpuStack
