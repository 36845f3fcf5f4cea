import GpuStack.DevicePlugin.Allocate
import GpuStack.Lib.Text

/-!
# DevicePlugin/Hint — the preferred allocation hint

Before it allocates, kubelet asks the server which of the available tokens it would rather hand out.  The
answer comes from a walk over the manufacturer's accelerators, group by group and in packing order within
a group: each accelerator met is skipped, put aside, or gives one token (`visit`).  Without preferred
accelerators the walk ends as soon as the count is full; with them it goes to the end, and what it took is
then ranked, cut to the count and, where it falls short, filled from what was put aside.

A walk without preferred accelerators takes the first accelerators that can be taken
(`selectUnits_nil`), so what it names is known without running it.
-/

namespace GpuStack

open List

open ResourceServer (groupTokens)

/-! ### The request -/

def padIndex (n : ℕ) : List Char := List.replicate (4 - (Text.printNat n).length) '0' ++ Text.printNat n

/-- The device ID of a token. -/
def ResourceToken.toString (t : ResourceToken) : String :=
  t.resource.toString ++ ":" ++ String.ofList (padIndex t.index)

/-- The tokens of a list of device IDs, by accelerator, each accelerator's in the order of their IDs. -/
def parseResourceTokensByAccelerator (deviceIDs : List ResourceToken) : TokensByCard :=
  groupTokens (deviceIDs.insertionSort fun a b => a.toString ≤ b.toString)

/-- The first token of an accelerator. -/
def TokensByCard.first (tokens : TokensByCard) (res : Resource) : Option ResourceToken :=
  (tokens.lookup res).bind List.head?

/-- What kubelet asks for one container. -/
structure PreferredRequest where
  availableDeviceIDs : List ResourceToken
  mustIncludeDeviceIDs : List ResourceToken := []
  allocationSize : ℕ

def PreferredRequest.available (req : PreferredRequest) : TokensByCard :=
  parseResourceTokensByAccelerator req.availableDeviceIDs

def PreferredRequest.mustIncluded (req : PreferredRequest) : TokensByCard :=
  parseResourceTokensByAccelerator req.mustIncludeDeviceIDs

/-! ### The order of the walk -/

/-- An accelerator at its place in the inventory. -/
structure PlacedCard where
  group : ℕ
  position : ℕ
  resource : Resource
deriving DecidableEq, Repr

/-- The mode the ledger shows at a place. -/
def modeAt (status : DevicesStatus) (card : PlacedCard) : DeviceAllocationMode :=
  match status.groups[card.group]?.bind fun g => g.accelerators[card.position]? with
  | some acc => acc.mode
  | none => .none

/-- The accelerators of one group, in the order of the inventory. -/
def groupCards (i : ℕ) (g : DevicesGroup) : List PlacedCard :=
  g.accelerators.mapIdx fun j acc => ⟨i, j, ⟨g.id, acc.id⟩⟩

/-- Which of two accelerators a slice of `units` tries first: what the container has already, then what
has room, the fullest first; what has none, the emptiest first. -/
def packsBefore (room : SlicedRoom) (mustIncluded : TokensByCard) (units : ℤ) (a b : PlacedCard) : Bool :=
  let must (c : PlacedCard) := (mustIncluded.lookup c.resource).isSome
  let fits (c : PlacedCard) := (room.shortage c.resource units).isNone
  if must a ≠ must b then must a
  else if fits a ≠ fits b then fits a
  else if fits a then room.remaining a.resource ≤ room.remaining b.resource
  else room.remaining b.resource ≤ room.remaining a.resource

/-- The accelerators of one group in the order a slice of `units` tries them. -/
def slicedPackingOrder (room : SlicedRoom) (mustIncluded : TokensByCard) (units : ℤ)
    (cards : List PlacedCard) : List PlacedCard :=
  if units ≤ 0 then cards else cards.insertionSort fun a b => packsBefore room mustIncluded units a b

namespace ResourceServer

variable (s : ResourceServer)

/-- The manufacturer's groups, at their places. -/
def placedGroups (spec : List DevicesGroup) : List (DevicesGroup × ℕ) :=
  spec.zipIdx.filter fun g => g.1.manufacturer = s.manufacturer

/-- The manufacturer's accelerators, in the order of the inventory. -/
def placedCards (spec : List DevicesGroup) : List PlacedCard :=
  (s.placedGroups spec).flatMap fun g => groupCards g.2 g.1

/-- The manufacturer's accelerators, in the order the walk meets them. -/
def walkOrder (room : SlicedRoom) (mustIncluded : TokensByCard) (units : ℤ) : List PlacedCard :=
  (s.placedGroups room.devs.spec).flatMap fun g =>
    slicedPackingOrder room mustIncluded units (groupCards g.2 g.1)

/-- The units a slice needs on each of its accelerators, zero when they are not asked for. -/
def slicedUnits (ctr : Container) : ℤ :=
  if s.allocationMode = .sliced then
    match ctr.limits.lookup (.slicedUnits s.base) with
    | some q => min q resourceMaxUnits
    | none => 0
  else 0

/-! ### The walk -/

/-- What the walk does with an accelerator. -/
inductive Visit
  | skip
  | defer (t : ResourceToken)
  | take (t : ResourceToken)
deriving DecidableEq, Repr

/-- The ledger shows the card free, or in the server's own mode. -/
def OpenAt (status : DevicesStatus) (card : PlacedCard) : Prop :=
  modeAt status card = .none ∨ modeAt status card = s.allocationMode

instance (status : DevicesStatus) (card : PlacedCard) : Decidable (s.OpenAt status card) :=
  inferInstanceAs (Decidable (_ ∨ _))

/-- What the walk does with one accelerator.  What the container has already is echoed whatever room the
card has; `preferred` is empty when nothing is preferred, and `wanted` is what is left of it. -/
def visit (room : SlicedRoom) (req : PreferredRequest) (units : ℤ) (preferred wanted : List String)
    (card : PlacedCard) : Visit :=
  match req.available.first card.resource with
  | none => .skip
  | some t =>
    if ¬ s.OpenAt room.devs.status card then .skip
    else
      match req.mustIncluded.first card.resource with
      | some m => .take m
      | none =>
        if 0 < units ∧ room.shortage card.resource units ≠ none then .defer t
        else if preferred ≠ [] ∧ card.resource.device ∉ wanted then .defer t
        else .take t

/-- What one walk produced. -/
structure PreferredSelection where
  selected : List ResourceToken := []
  unselected : List ResourceToken := []
  remainingSize : ℤ
deriving DecidableEq, Repr

/-- The walk.  Without preferred accelerators it ends when the count is full. -/
def selectUnits (room : SlicedRoom) (req : PreferredRequest) (units : ℤ) (preferred : List String) :
    List PlacedCard → List String → PreferredSelection → PreferredSelection
  | [], _, sel => sel
  | card :: cards, wanted, sel =>
    match s.visit room req units preferred wanted card with
    | .skip => selectUnits room req units preferred cards wanted sel
    | .defer t =>
      selectUnits room req units preferred cards wanted { sel with unselected := sel.unselected ++ [t] }
    | .take t =>
      let sel' := { sel with selected := sel.selected ++ [t], remainingSize := sel.remainingSize - 1 }
      if preferred = [] ∧ sel'.remainingSize ≤ 0 then sel'
      else selectUnits room req units preferred cards (wanted.filter (· ≠ card.resource.device)) sel'

/-! ### The hint -/

/-- The place of a device among the preferred ones; one that is not among them ranks as the first. -/
def preferredRank (preferred : List String) (device : String) : ℕ :=
  if device ∈ preferred then preferred.idxOf device else 0

/-- Which of two tokens is kept first: what the container has already, then what ranks before. -/
def ranksBefore (mustIncluded : TokensByCard) (preferred : List String) (a b : ResourceToken) : Bool :=
  let must (t : ResourceToken) := (mustIncluded.first t.resource).isSome
  if must a ≠ must b then must a
  else preferredRank preferred a.resource.device ≤ preferredRank preferred b.resource.device

/-- Rank what was taken and cut it to the count. -/
def capAndOrderPreferredTokens (mustIncluded : TokensByCard) (preferred : List String)
    (selected : List ResourceToken) (size : ℕ) : List ResourceToken :=
  (selected.insertionSort fun a b => ranksBefore mustIncluded preferred a b).take size

/-- The place of an accelerator in the inventory, zero for one that is not in it. -/
def hardwarePosition (spec : List DevicesGroup) (res : Resource) : ℕ :=
  if res ∈ specResources spec then
    (specResources spec).length - 1 - (specResources spec).reverse.idxOf res
  else 0

def sortTokensByHardwareOrder (spec : List DevicesGroup) (tokens : List ResourceToken) :
    List ResourceToken :=
  tokens.insertionSort fun a b => hardwarePosition spec a.resource ≤ hardwarePosition spec b.resource

/-- What one walk of the node's accelerators takes. -/
def selectPreferredUnits (room : SlicedRoom) (req : PreferredRequest) (preferred : List String)
    (units : ℤ) : PreferredSelection :=
  let sel := s.selectUnits room req units preferred (s.walkOrder room req.mustIncluded units) preferred
    { remainingSize := req.allocationSize }
  if preferred = [] then sel
  else
    let capped := capAndOrderPreferredTokens req.mustIncluded preferred sel.selected req.allocationSize
    { sel with selected := capped, remainingSize := req.allocationSize - capped.length }

/-- The tokens of the hint: none when the count cannot be reached. -/
def preferredTokens (room : SlicedRoom) (req : PreferredRequest) (preferred : List String)
    (units : ℤ) : List ResourceToken :=
  let sel := s.selectPreferredUnits room req preferred units
  if preferred = [] then
    if 0 < sel.remainingSize then [] else sel.selected
  else if 0 < sel.remainingSize then
    if sel.unselected = [] ∨ (sel.unselected.length : ℤ) < sel.remainingSize then []
    else sortTokensByHardwareOrder room.devs.spec
      (sel.selected ++ sel.unselected.take sel.remainingSize.toNat)
  else sortTokensByHardwareOrder room.devs.spec sel.selected

end ResourceServer

/-- The room of a container's slices. -/
def hintRoom (sw : Switches) (s : ResourceServer) (r : DevicesReconciler) (snap : Snapshot) (pod : Pod)
    (ctr : Container) : SlicedRoom :=
  ⟨snap.devices, slicedOccupancyForAllocate sw s r snap, ⟨pod.uid, ctr.name⟩⟩

/-- **The hint** for one container.  Tokens of a partition or for visibility are interchangeable, so there
is nothing to prefer among them. -/
def getPreferredAllocation (sw : Switches) (s : ResourceServer) (r : DevicesReconciler) (snap : Snapshot)
    (preferred : List String) (pod : Pod) (ctr : Container) (req : PreferredRequest) :
    List ResourceToken :=
  if s.allocationMode = .visibility ∨ s.allocationMode = .partitioned then []
  else s.preferredTokens (hintRoom sw s r snap pod ctr) req preferred (s.slicedUnits ctr)

/-! ### What a request names -/

variable {res : Resource} {ids : List ResourceToken}

/-- **The first token of an accelerator is one of those asked about.** -/
theorem of_first_eq_some {t : ResourceToken}
    (h : (parseResourceTokensByAccelerator ids).first res = some t) : t ∈ ids ∧ t.resource = res := by
  rw [TokensByCard.first, parseResourceTokensByAccelerator, lookup_groupTokens] at h
  split at h
  · cases h
  · have hmem := mem_of_mem_head? h
    rw [mem_filter, mem_insertionSort] at hmem
    simpa using hmem

theorem first_isSome :
    ((parseResourceTokensByAccelerator ids).first res).isSome ↔ ∃ t ∈ ids, t.resource = res := by
  constructor
  · intro h
    obtain ⟨t, ht⟩ := Option.isSome_iff_exists.mp h
    exact ⟨t, of_first_eq_some ht⟩
  · rintro ⟨t, ht, rfl⟩
    have hmem : t ∈ (ids.insertionSort fun a b => a.toString ≤ b.toString).filter
        (·.resource = t.resource) := by
      rw [mem_filter, mem_insertionSort]
      exact ⟨ht, by simp⟩
    rw [TokensByCard.first, parseResourceTokensByAccelerator, lookup_groupTokens,
      if_neg (ne_nil_of_mem hmem)]
    cases hl : (ids.insertionSort fun a b => a.toString ≤ b.toString).filter
        (·.resource = t.resource) with
    | nil => rw [hl] at hmem; cases hmem
    | cons => rfl

theorem first_eq_none :
    (parseResourceTokensByAccelerator ids).first res = none ↔ ∀ t ∈ ids, t.resource ≠ res := by
  rw [← Option.not_isSome_iff_eq_none, first_isSome]
  push Not
  rfl

/-! ### What the walk meets -/

theorem perm_slicedPackingOrder (room : SlicedRoom) (mustIncluded : TokensByCard) (units : ℤ)
    (cards : List PlacedCard) : (slicedPackingOrder room mustIncluded units cards).Perm cards := by
  unfold slicedPackingOrder
  split
  · rfl
  · exact perm_insertionSort _ _

namespace ResourceServer

variable {s : ResourceServer} {room : SlicedRoom} {req : PreferredRequest} {units : ℤ}
  {preferred wanted : List String} {card : PlacedCard} {t : ResourceToken}

/-- The walk meets every accelerator of the manufacturer once. -/
theorem perm_walkOrder (s : ResourceServer) (room : SlicedRoom) (mustIncluded : TokensByCard) (units : ℤ) :
    (s.walkOrder room mustIncluded units).Perm (s.placedCards room.devs.spec) :=
  List.Perm.flatMap_left _ fun _ _ => perm_slicedPackingOrder _ _ _ _

/-- What it takes for the walk to take a token of a card. -/
theorem of_visit_eq_take (h : s.visit room req units preferred wanted card = .take t) :
    (req.available.first card.resource).isSome ∧ s.OpenAt room.devs.status card ∧
      (req.mustIncluded.first card.resource = some t ∨
        req.mustIncluded.first card.resource = none ∧ req.available.first card.resource = some t ∧
          (0 < units → room.shortage card.resource units = none)) := by
  unfold visit at h
  grind

/-- What it takes for the walk to put a card aside. -/
theorem of_visit_eq_defer (h : s.visit room req units preferred wanted card = .defer t) :
    s.OpenAt room.devs.status card ∧ req.mustIncluded.first card.resource = none ∧
      req.available.first card.resource = some t := by
  unfold visit at h
  grind

/-- What the container has already is taken, unless the card is not available or held in another mode. -/
theorem visit_of_mustInclude (ha : (req.available.first card.resource).isSome)
    (ho : s.OpenAt room.devs.status card) (hm : req.mustIncluded.first card.resource = some t) :
    s.visit room req units preferred wanted card = .take t := by
  unfold visit
  grind

/-! ### The walk without preferred accelerators -/

/-- The token a card gives when nothing is preferred. -/
def tokenAt (s : ResourceServer) (room : SlicedRoom) (req : PreferredRequest) (units : ℤ)
    (card : PlacedCard) : Option ResourceToken :=
  match s.visit room req units [] [] card with
  | .take t => some t
  | _ => none

theorem tokenAt_eq_some :
    s.tokenAt room req units card = some t ↔ s.visit room req units [] [] card = .take t := by
  unfold tokenAt
  cases s.visit room req units [] [] card <;> simp

/-- **Without preferred accelerators the walk takes the first cards that can be taken**, as many as are
asked for and one at least. -/
theorem selectUnits_nil (s : ResourceServer) (room : SlicedRoom) (req : PreferredRequest) (units : ℤ)
    (cards : List PlacedCard) (wanted : List String) (sel : PreferredSelection) {k : ℕ} (hk : (k : ℤ) = max 1 sel.remainingSize) :
    let taken := (cards.filterMap (s.tokenAt room req units)).take k
    (s.selectUnits room req units [] cards wanted sel).selected = sel.selected ++ taken ∧
      (s.selectUnits room req units [] cards wanted sel).remainingSize =
        sel.remainingSize - taken.length := by
  induction cards generalizing wanted sel k with
  | nil => simp [selectUnits]
  | cons card cards ih =>
    have hvisit : s.visit room req units [] wanted card = s.visit room req units [] [] card := by
      simp [visit]
    rw [selectUnits, hvisit]
    cases hv : s.visit room req units [] [] card with
    | skip => simpa [filterMap_cons, tokenAt, hv] using ih wanted sel hk
    | defer t =>
      simpa [filterMap_cons, tokenAt, hv] using
        ih wanted { sel with unselected := sel.unselected ++ [t] } hk
    | take t =>
      rw [filterMap_cons_some (tokenAt_eq_some.mpr hv)]
      obtain ⟨k, rfl⟩ : ∃ n, k = n + 1 := ⟨k - 1, by omega⟩
      dsimp only
      split
      · rename_i hfull
        obtain rfl : k = 0 := by omega
        simp
      · rename_i hmore
        have hleft : (k : ℤ) = max 1 (sel.remainingSize - 1) := by
          rw [not_and, not_le] at hmore
          have := hmore rfl
          omega
        have hrest := ih (wanted.filter (· ≠ card.resource.device))
          ⟨sel.selected ++ [t], sel.unselected, sel.remainingSize - 1⟩ hleft
        dsimp only at hrest
        refine ⟨by rw [hrest.1]; simp, ?_⟩
        rw [hrest.2, take_succ_cons, length_cons]
        push_cast
        ring

/-- The cards that can be taken give the hint. -/
theorem preferredTokens_nil (s : ResourceServer) (room : SlicedRoom) (req : PreferredRequest) (units : ℤ) :
    s.preferredTokens room req [] units =
      let takes := (s.walkOrder room req.mustIncluded units).filterMap (s.tokenAt room req units)
      if takes.length < req.allocationSize then [] else takes.take (max 1 req.allocationSize) := by
  obtain ⟨hsel, hrem⟩ := selectUnits_nil s room req units
    (s.walkOrder room req.mustIncluded units) [] { remainingSize := req.allocationSize }
    (k := max 1 req.allocationSize) (by push_cast; rfl)
  dsimp only at hsel hrem ⊢
  simp only [preferredTokens, selectPreferredUnits, if_true, hsel, hrem, nil_append,
    length_take]
  split <;> split <;> first | rfl | omega

end ResourceServer

end GpuStack
