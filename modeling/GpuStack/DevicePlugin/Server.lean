import GpuStack.DevicePlugin.SlicedRoom

/-!
# DevicePlugin/Server — one resource server, and the allocation it writes

A `ResourceServer` serves one allocation mode of one manufacturer.  Here are the parts of its
Allocate that look at one request and one snapshot: the tokens per card, the units asked for, the
cross-mode refusal, and the allocation it charges.

The allocation is known by its rows (`rows_accumulateAllocation`): one per accelerator of the
manufacturer that has tokens, in inventory order, in the server's mode.
-/

namespace GpuStack

open List

/-- A server of one manufacturer's accelerators in one mode.  `base` is the resource base name of
the manufacturer. -/
structure ResourceServer where
  manufacturer : String
  base : String
  allocationMode : DeviceAllocationMode
deriving DecidableEq, Repr

namespace ResourceServer

variable (s : ResourceServer)

/-- The resource the server registers with kubelet. -/
def resourceName : ResourceName :=
  match s.allocationMode with
  | .shared => .shared s.base
  | .sliced => .sliced s.base
  | .partitioned => .partitioned s.base
  | .visibility => .visibility s.manufacturer
  | _ => .exclusive s.base

/-- The fine-grained counting key of the family, if it has one. -/
def unitsResourceName : Option ResourceName :=
  match s.allocationMode with
  | .sliced => some (.slicedUnits s.base)
  | .partitioned => some (.partitionedUnits s.base)
  | _ => none

/-- The units one token commits, and whether the container asked for them at all. -/
def requestedUnits (ctr : Container) : ℤ × Bool :=
  match s.unitsResourceName.bind ctr.limits.lookup with
  | some q => if 0 < q then (q, true) else (1, false)
  | none => (1, false)

/-! ## Tokens -/

/-- Put one more token on its card. -/
def addToken (tokens : TokensByCard) (t : ResourceToken) : TokensByCard :=
  tokens.insert t.resource ((tokens.lookup t.resource).getD [] ++ [t])

/-- The tokens kubelet handed out, by card. -/
def groupTokens (tokens : List ResourceToken) : TokensByCard := tokens.foldl addToken ∅

/-- A card a shared request was handed two tokens of. -/
def repeatedSharedCard (tokensByCard : TokensByCard) : Option Resource :=
  if s.allocationMode ≠ .shared then none else
    ((tokensByCard.keys.filter fun res => 1 < ((tokensByCard.lookup res).getD []).length
      ).insertionSort fun a b => a.toString ≤ b.toString).head?

/-! ## The cross-mode check -/

/-- The other mode a card is held in, by the ledger or by a reservation. -/
def cardHeldInOtherMode (r : DevicesReconciler) (status : DevicesStatus) (res : Resource) :
    Option DeviceAllocationMode :=
  let m := statusModeOf status res
  if m ≠ .none ∧ m ≠ s.allocationMode then some m else
    let m := r.reservedModeForResource res
    if m ≠ .none ∧ m ≠ s.allocationMode then some m else none

/-- The first card of an allocation that another mode holds. -/
def crossModeCard (r : DevicesReconciler) (status : DevicesStatus) (tokensByCard : TokensByCard) :
    Option (Resource × DeviceAllocationMode) :=
  tokensByCard.keys.findSome? fun res => (s.cardHeldInOtherMode r status res).map (res, ·)

/-- A free card, or one the server's own mode holds, passes. -/
theorem cardHeldInOtherMode_eq_none {r : DevicesReconciler} {status : DevicesStatus}
    {res : Resource} : s.cardHeldInOtherMode r status res = none ↔
      (statusModeOf status res = .none ∨ statusModeOf status res = s.allocationMode) ∧
        (r.reservedModeForResource res = .none
          ∨ r.reservedModeForResource res = s.allocationMode) := by
  unfold cardHeldInOtherMode
  grind

theorem crossModeCard_eq_none {r : DevicesReconciler} {status : DevicesStatus}
    {tokensByCard : TokensByCard} : s.crossModeCard r status tokensByCard = none ↔
      ∀ res ∈ tokensByCard.keys, s.cardHeldInOtherMode r status res = none := by
  simp [crossModeCard]

/-! ## The allocation -/

/-- The units charged on one card. -/
def allocatedUnits (unitsPerToken : ℤ) (tokens : ℕ) : ℤ :=
  min (match s.allocationMode with
    | .shared => resourceMaxUnits / sharedResourceMaxSize
    | .sliced | .partitioned => unitsCharged unitsPerToken tokens
    | _ => resourceMaxUnits) resourceMaxUnits

/-- Add one accelerator: to the last group when it is of the same ID, in a new group otherwise. -/
def appendAccelerator (id manufacturer : String) (acc : AcceleratorAllocation) :
    List DevicesAllocationGroup → List DevicesAllocationGroup
  | [] => [⟨id, manufacturer, [acc]⟩]
  | [g] => if g.id = id then [{ g with accelerators := g.accelerators ++ [acc] }]
    else [g, ⟨id, manufacturer, [acc]⟩]
  | g :: g' :: gs => g :: appendAccelerator id manufacturer acc (g' :: gs)

/-- The entry charged for one accelerator. -/
def chargedEntry (unitsPerToken : ℤ) (acc : Accelerator) (tokens : List ResourceToken) :
    AcceleratorAllocation :=
  { id := acc.id
    index := acc.index
    mode := s.allocationMode
    allocated := s.allocatedUnits unitsPerToken tokens.length }

/-- Charge one accelerator of the inventory, if tokens landed on it. -/
def chargeCard (tokensByCard : TokensByCard) (unitsPerToken : ℤ)
    (groups : List DevicesAllocationGroup) (card : Resource × DevicesGroup × Accelerator) :
    List DevicesAllocationGroup :=
  if card.2.1.manufacturer = s.manufacturer then
    match tokensByCard.lookup card.1 with
    | some tokens =>
      appendAccelerator card.2.1.id card.2.1.manufacturer
        (s.chargedEntry unitsPerToken card.2.2 tokens) groups
    | none => groups
  else groups

/-- **The allocation**: every accelerator the tokens land on, charged for the units it commits. -/
def accumulateAllocation (spec : List DevicesGroup) (tokensByCard : TokensByCard)
    (unitsPerToken : ℤ) : DevicesStatus :=
  ⟨(specCards spec).foldl (s.chargeCard tokensByCard unitsPerToken) []⟩

/-- The units per accelerator the responders are handed. -/
def allocationUnits (status : DevicesStatus) : AList fun _ : Resource => ℤ :=
  status.rows.foldl (fun m row => m.insert row.1 row.2.allocated) ∅

end ResourceServer

/-! ## The tokens by card -/

theorem mem_groupTokens {tokens : List ResourceToken} {res : Resource} :
    res ∈ ResourceServer.groupTokens tokens ↔ ∃ t ∈ tokens, t.resource = res := by
  unfold ResourceServer.groupTokens
  exact (Assoc.mem_foldl_insert _ _ _ _ _).trans (or_iff_left (AList.notMem_empty _))

theorem lookup_foldl_addToken (tokens : List ResourceToken) (m : TokensByCard) (res : Resource) :
    (tokens.foldl ResourceServer.addToken m).lookup res =
      if tokens.filter (·.resource = res) = [] then m.lookup res
      else some ((m.lookup res).getD [] ++ tokens.filter (·.resource = res)) := by
  induction tokens generalizing m with
  | nil => rfl
  | cons t tokens ih =>
    rw [foldl_cons, ih, ResourceServer.addToken]
    by_cases ht : t.resource = res
    · subst ht
      by_cases hrest : tokens.filter (·.resource = t.resource) = [] <;> simp [hrest]
    · rw [AList.lookup_insert_ne (Ne.symm ht), filter_cons_of_neg (by simpa using ht)]

/-- The tokens of a card, in the order they came. -/
theorem lookup_groupTokens (tokens : List ResourceToken) (res : Resource) :
    (ResourceServer.groupTokens tokens).lookup res =
      if tokens.filter (·.resource = res) = [] then none
      else some (tokens.filter (·.resource = res)) := by
  rw [ResourceServer.groupTokens, lookup_foldl_addToken]
  rfl

/-! ## Recording placements -/

/-- Rewrite every accelerator of an allocation, by the resource it is. -/
def DevicesStatus.mapRows (f : Resource → AcceleratorAllocation → AcceleratorAllocation)
    (s : DevicesStatus) : DevicesStatus :=
  ⟨s.groups.map fun g =>
    { g with accelerators := g.accelerators.map fun a => f ⟨g.id, a.id⟩ a }⟩

/-- Record the geometry the responder chose. -/
def applyLogicalPlacements (status : DevicesStatus) (placements : Placements) : DevicesStatus :=
  status.mapRows fun res acc =>
    match placements.lookup res with
    | some p => if p ≠ [] then { acc with allocatedLogicalPlacements := p } else acc
    | none => acc

/-- Record a partition's profile, its placements and, once it exists, its identifier. -/
def applyPhysicalPlacements (status : DevicesStatus) (profile : String) (placements : Placements)
    (ids : AList fun _ : Resource => String) : DevicesStatus :=
  status.mapRows fun res acc =>
    match placements.lookup res with
    | some p =>
      { acc with
        allocatedPhysicalProfile := profile
        allocatedPhysicalPlacements := p
        allocatedPhysicalID := (ids.lookup res).getD "" }
    | none => acc

/-! ## The rows of an allocation -/

theorem rows_appendAccelerator (id manufacturer : String) (acc : AcceleratorAllocation) :
    ∀ gs : List DevicesAllocationGroup,
      (⟨ResourceServer.appendAccelerator id manufacturer acc gs⟩ : DevicesStatus).rows
        = (⟨gs⟩ : DevicesStatus).rows ++ [(⟨id, acc.id⟩, acc)]
  | [] => by simp [ResourceServer.appendAccelerator]
  | [g] => by
    unfold ResourceServer.appendAccelerator
    split
    · rename_i hid
      simp [hid]
    · simp
  | g :: g' :: gs => by
    rw [ResourceServer.appendAccelerator, rows_cons, rows_cons,
      rows_appendAccelerator id manufacturer acc (g' :: gs), ← append_assoc]

variable (s : ResourceServer)

/-- The row charged for one card of the inventory, if any. -/
def ResourceServer.cardRow (tokensByCard : TokensByCard) (unitsPerToken : ℤ)
    (card : Resource × DevicesGroup × Accelerator) : Option Entry :=
  if card.2.1.manufacturer = s.manufacturer then
    (tokensByCard.lookup card.1).map fun tokens =>
      (card.1, s.chargedEntry unitsPerToken card.2.2 tokens)
  else none

theorem fst_of_mem_specCards {spec : List DevicesGroup}
    {card : Resource × DevicesGroup × Accelerator} (h : card ∈ specCards spec) :
    card.1 = ⟨card.2.1.id, card.2.2.id⟩ := by
  obtain ⟨g, _, hcard⟩ := mem_flatMap.mp h
  obtain ⟨a, _, rfl⟩ := mem_map.mp hcard
  rfl

/-- **The rows of the allocation**: one for each card of the manufacturer with tokens. -/
theorem rows_accumulateAllocation (spec : List DevicesGroup) (tokensByCard : TokensByCard)
    (unitsPerToken : ℤ) :
    (s.accumulateAllocation spec tokensByCard unitsPerToken).rows
      = (specCards spec).filterMap (s.cardRow tokensByCard unitsPerToken) := by
  -- the walk adds at the end what one card charges
  have hstep : ∀ (gs : List DevicesAllocationGroup) (card : Resource × DevicesGroup × Accelerator),
      card.1 = ⟨card.2.1.id, card.2.2.id⟩ →
      (⟨s.chargeCard tokensByCard unitsPerToken gs card⟩ : DevicesStatus).rows
        = (⟨gs⟩ : DevicesStatus).rows ++ (s.cardRow tokensByCard unitsPerToken card).toList := by
    intro gs card hcard
    unfold ResourceServer.chargeCard ResourceServer.cardRow
    split
    · cases tokensByCard.lookup card.1 with
      | none => simp
      | some tokens => simp [rows_appendAccelerator, hcard, ResourceServer.chargedEntry]
    · simp
  suffices ∀ (cards : List (Resource × DevicesGroup × Accelerator)) gs,
      (∀ card ∈ cards, card.1 = ⟨card.2.1.id, card.2.2.id⟩) →
      (⟨cards.foldl (s.chargeCard tokensByCard unitsPerToken) gs⟩ : DevicesStatus).rows
        = (⟨gs⟩ : DevicesStatus).rows
          ++ cards.filterMap (s.cardRow tokensByCard unitsPerToken) by
    simpa [ResourceServer.accumulateAllocation] using
      this (specCards spec) [] fun card => fst_of_mem_specCards
  intro cards
  induction cards with
  | nil => simp
  | cons card cards ih =>
    intro gs hcards
    rw [foldl_cons, ih _ fun c hc => hcards c (.tail _ hc),
      hstep gs card (hcards card (.head _)), append_assoc]
    cases h : s.cardRow tokensByCard unitsPerToken card with
    | none => rw [filterMap_cons_none h, Option.toList_none, nil_append]
    | some row => rw [filterMap_cons_some h, Option.toList_some, singleton_append]

@[simp] theorem groups_mapRows_eq_nil {f : Resource → AcceleratorAllocation → AcceleratorAllocation}
    {st : DevicesStatus} : (st.mapRows f).groups = [] ↔ st.groups = [] := by
  simp [DevicesStatus.mapRows]

end GpuStack
