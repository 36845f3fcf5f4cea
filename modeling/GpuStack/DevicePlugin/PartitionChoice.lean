import GpuStack.DevicePlugin.Server

/-!
# DevicePlugin/PartitionChoice — which cards a partition allocation lands on

The partitioned family reads kubelet's tokens as a quantity and picks the cards itself.  A container
that already holds an allocation lands back on the cards and placements it recorded
(`priorPartitionTokens`).  Otherwise every partitioned card of the manufacturer that offers the
profile and no other mode holds is a candidate, and `selectPartitionPlacements` chooses among them.

The selector deals in opaque IDs, so the choice is read back through the map from a card's name to
the card (`byID`).
-/

namespace GpuStack

/-- The partition profile a container asks for. -/
def partitionProfileOf (ctr : Container) : Option String :=
  ctr.limits.entries.findSome? fun e =>
    match e.1 with
    | .partitionedProfile _ profile => some profile
    | _ => none

/-- A card's legal placements for one profile. -/
def profilePlacements (profiles : List AcceleratorPhysicalSlicedProfile) (profile : String) :
    List AcceleratorPlacement :=
  match profiles.find? (fun p => p.name = profile) with
  | some p => p.placements
  | none => []

/-- An absolute memory request as units of one card. -/
def memoryMibToUnits (mib cardVRAMMib : ℤ) : ℤ :=
  if cardVRAMMib ≤ 0 then 0 else (mib * resourceMaxUnits).tdiv cardVRAMMib

/-- A profile's cost in units, from the first card that offers it with a memory detail; zero when
none does. -/
def partitionProfileUnits (s : ResourceServer) (spec : List DevicesGroup) (profile : String) : ℤ :=
  ((specCards spec).findSome? fun card =>
    if card.2.1.manufacturer = s.manufacturer ∧ card.2.1.memory ≠ 0
        ∧ isPartitioned card.2.2.status = true then
      (card.2.2.status.physicalSliced.profiles.find? fun p =>
        p.name = profile ∧ 0 < p.memoryMib).map fun p =>
          memoryMibToUnits p.memoryMib card.2.1.memory
    else none).getD 0

/-! ## The candidates -/

/-- What kept a partitioned card out of a decision. -/
inductive PartitionExclusion
  | unhealthy (device : String)
  | noPlacement (device profile : String)
  | held (device : String) (mode : DeviceAllocationMode)
deriving DecidableEq, Repr

/-- One card as a decision sees it: outside the family, kept out, or a candidate. -/
def partitionCandidate (s : ResourceServer) (r : DevicesReconciler) (status : DevicesStatus)
    (occupied : Placements) (profile : String) (card : Resource × DevicesGroup × Accelerator) :
    Option (PartitionExclusion ⊕ PartitionCandidate) :=
  if card.2.1.manufacturer ≠ s.manufacturer ∨ isPartitioned card.2.2.status = false then none
  else if card.2.2.status.unhealthy then some (.inl (.unhealthy card.2.2.id))
  else
    match profilePlacements card.2.2.status.physicalSliced.profiles profile,
        s.cardHeldInOtherMode r status card.1 with
    | [], _ => some (.inl (.noPlacement card.2.2.id profile))
    | _, some mode => some (.inl (.held card.2.2.id mode))
    | possible, none =>
      some (.inr ⟨card.1.toString, possible, (occupied.lookup card.1).getD []⟩)

/-- The candidates, each with its card. -/
def partitionCandidates (s : ResourceServer) (r : DevicesReconciler) (devs : Devices)
    (occupied : Placements) (profile : String) : List (Resource × PartitionCandidate) :=
  (specCards devs.spec).filterMap fun card =>
    match partitionCandidate s r devs.status occupied profile card with
    | some (.inr c) => some (card.1, c)
    | _ => none

/-- The cards kept out, with the reason. -/
def partitionExclusions (s : ResourceServer) (r : DevicesReconciler) (devs : Devices)
    (occupied : Placements) (profile : String) : List PartitionExclusion :=
  (specCards devs.spec).filterMap fun card =>
    match partitionCandidate s r devs.status occupied profile card with
    | some (.inl e) => some e
    | _ => none

/-- The card of a candidate's ID. -/
def candidateByID (candidates : List (Resource × PartitionCandidate)) :
    AList fun _ : String => Resource :=
  candidates.foldl (fun m c => m.insert c.2.id c.1) ∅

/-! ## From a decision to tokens and placements -/

/-- What an allocation takes: tokens on each card, and the placements it means to occupy. -/
structure PartitionCards where
  tokens : TokensByCard := ∅
  placements : Placements := ∅
deriving DecidableEq

/-- One more token on a card, numbered on from those it has. -/
def PartitionCards.addToken (cards : PartitionCards) (res : Resource) : TokensByCard :=
  let tokens := (cards.tokens.lookup res).getD []
  cards.tokens.insert res (tokens ++ [⟨res, tokens.length⟩])

/-- One row of an allocation already held. -/
def priorPartitionRow (cards : PartitionCards) (row : Entry) : PartitionCards where
  tokens := cards.addToken row.1
  placements :=
    if isPhysicalRecord row.2 then
      cards.placements.insert row.1 row.2.allocatedPhysicalPlacements
    else cards.placements

/-- The cards and placements an allocation already held names. -/
def priorPartitionTokens (prior : DevicesStatus) : PartitionCards :=
  prior.rows.foldl priorPartitionRow {}

/-- One selection of the placement decision. -/
def partitionSelection (byID : AList fun _ : String => Resource) (cards : PartitionCards)
    (sel : PartitionSelection) : PartitionCards :=
  let res := (byID.lookup sel.id).getD ⟨"", ""⟩
  { tokens := cards.addToken res
    placements :=
      cards.placements.insert res ((cards.placements.lookup res).getD [] ++ [sel.placement]) }

/-- The cards and placements a placement decision names. -/
def partitionTokens (selections : List PartitionSelection) (byID : AList fun _ : String => Resource) :
    PartitionCards :=
  selections.foldl (partitionSelection byID) {}

/-! ## The choice -/

/-- The unit cost of one instance: what was asked for, folded from the profile when nothing was. -/
def partitionUnits (s : ResourceServer) (spec : List DevicesGroup) (profile : String)
    (unitsPerToken : ℤ) (unitsRequested : Bool) : ℤ :=
  let units := partitionProfileUnits s spec profile
  if !unitsRequested ∧ 0 < units then units else unitsPerToken

/-- **The cards of a partition allocation**: those the container already holds, or else those the
placement decision picks; `none` when no choice hosts the instances asked for. -/
def choosePartitionCards (s : ResourceServer) (r : DevicesReconciler) (devs : Devices) (pod : Pod)
    (container : String) (occupied : Placements) (profile : String) (instances : ℕ) :
    Option PartitionCards :=
  match priorAllocationOf r pod container with
  | some prior => some (priorPartitionTokens prior)
  | none =>
    let candidates := partitionCandidates s r devs occupied profile
    (selectPartitionPlacements (candidates.map (·.2)) instances).map fun selections =>
      partitionTokens selections (candidateByID candidates)

end GpuStack
