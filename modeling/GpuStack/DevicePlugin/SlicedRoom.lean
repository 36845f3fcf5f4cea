import GpuStack.DevicePlugin.Claims

/-!
# DevicePlugin/SlicedRoom — how much room a card has for one container's logical slice

The occupancy is what the live logical slices hold, per card and per holding container, each
container read by `priorClaimOf` and counted once.  Keeping the holder lets a container be judged
against everyone but itself (`heldExcept`).  A slice needs free units and, on a card that counts its
slices, a free slot (`shortage`).

The occupancy is a map from cards to maps from holders to units; here the two keys stand together.
-/

namespace GpuStack

/-- One allocatable token on one card. -/
structure ResourceToken where
  resource : Resource
  index : ℕ := 0
deriving DecidableEq, Repr

/-- The tokens an allocation has on each of its cards. -/
abbrev TokensByCard := AList fun _ : Resource => List ResourceToken

/-- The units recorded for some tokens of one card, a whole card at most. -/
def unitsCharged (unitsPerToken : ℤ) (tokens : ℕ) : ℤ :=
  min (min unitsPerToken resourceMaxUnits * tokens) resourceMaxUnits

/-- The units the ledger still reports free on a card; a card it does not list is untouched. -/
def statusRemainingOf (s : DevicesStatus) (res : Resource) : ℤ :=
  match s.rows.find? (fun row => row.1 = res) with
  | some row => row.2.remaining
  | none => resourceMaxUnits

/-! ## The occupancy -/

/-- Units held, by card and holding container. -/
abbrev SlicedOccupancy := AList fun _ : Resource × ReservationKey => ℤ

/-- Record the logical slices one container holds. -/
def SlicedOccupancy.add (o : SlicedOccupancy) (holder : ReservationKey) (held : DevicesStatus) :
    SlicedOccupancy :=
  held.rows.foldl
    (fun o row => if row.2.mode = .sliced then Tally.add o (row.1, holder) row.2.allocated else o) o

/-- The containers of a Pod that some record names, in order. -/
def holderNames (r : DevicesReconciler) (pod : Pod) : List String :=
  ((((allocatedAcceleratorsOf pod).getD ∅).keys ++ (r.reservationsFor pod.uid).keys).dedup
    ).insertionSort (· ≤ ·)

/-- Record what one container of a Pod holds. -/
def occupy (released : Bool) (r : DevicesReconciler) (pod : Pod) (o : SlicedOccupancy)
    (name : String) : SlicedOccupancy :=
  match priorClaimOf r pod name with
  | some held => o.add ⟨pod.uid, name⟩ (heldAllocation released pod held.val.devices)
  | none => o

/-- **The node's logical-slice occupancy.** -/
def slicedOccupancy (released : Bool) (r : DevicesReconciler) (pods : List Pod) :
    SlicedOccupancy :=
  pods.foldl (fun o pod => (holderNames r pod).foldl (occupy released r pod) o) ∅

/-- The units and the number of slices that holders other than `self` hold on a card. -/
def SlicedOccupancy.heldExcept (o : SlicedOccupancy) (res : Resource) (self : ReservationKey) :
    ℤ × ℤ :=
  let others := o.entries.filter fun e => e.1.1 = res ∧ e.1.2 ≠ self
  ((others.map (·.2)).sum, others.length)

/-! ## The room -/

/-- The room view of one container.  Without an occupancy the ledger's `remaining` is read. -/
structure SlicedRoom where
  devs : Devices
  occupied : Option SlicedOccupancy
  self : ReservationKey
deriving DecidableEq

/-- Why a card cannot give a slice. -/
inductive Shortage
  | slots (hosts count : ℤ)
  | units (free need : ℤ)
deriving DecidableEq, Repr

def Shortage.message : Shortage → String
  | .slots hosts count => s!"it already hosts {hosts} of its {count} slices"
  | .units free need =>
    s!"it has {free} of {resourceMaxUnits} units free and the slice needs {need}"

namespace SlicedRoom

variable (room : SlicedRoom)

/-- The units a card still has for this container's slice. -/
def remaining (res : Resource) : ℤ :=
  match room.occupied with
  | none => statusRemainingOf room.devs.status res
  | some o => max (resourceMaxUnits - (o.heldExcept res room.self).1) 0

/-- The card counts its slices and has no slot left. -/
def slotShortage (res : Resource) : Option Shortage :=
  match room.occupied, capabilityOf room.devs.spec res with
  | some o, some capability =>
    let slices := (o.heldExcept res room.self).2
    if isLogicallySliceable capability ∧ logicalSlotsFree capability slices ≤ 0 then
      some (.slots slices capability.logicalSliced.count)
    else none
  | _, _ => none

/-- **Why a card cannot give this container a slice** of `need` units, `none` when it can. -/
def shortage (res : Resource) (need : ℤ) : Option Shortage :=
  match room.slotShortage res with
  | some s => some s
  | none => if room.remaining res < need then some (.units (room.remaining res) need) else none

end SlicedRoom

/-- The first of the cards handed out that cannot hold the slice, in the order of their names. -/
def slicedOvercommit (room : SlicedRoom) (tokensByCard : TokensByCard) (unitsPerToken : ℤ) :
    Option (Resource × Shortage) :=
  (tokensByCard.keys.insertionSort fun a b => a.toString ≤ b.toString).findSome? fun res =>
    (room.shortage res
      (unitsCharged unitsPerToken ((tokensByCard.lookup res).getD []).length)).map (res, ·)

end GpuStack
