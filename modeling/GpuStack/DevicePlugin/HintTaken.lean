import GpuStack.DevicePlugin.Hint

/-!
# DevicePlugin/HintTaken — does Allocate take what the hint names?

The hint and the Allocate that follows judge a card by different readings of one snapshot.  The hint reads
the mode of the ledger entry at the card's place in the inventory and asks for room only when the
container names its units; Allocate reads the entry that carries the card's name, and the reservations,
and always asks for room.

So a hint that must include nothing Allocate refuses is taken for every request exactly when the readings
agree on every card the hint would offer (`hint_taken_iff`).
-/

namespace GpuStack

open List

open ResourceServer (groupTokens)

variable (sw : Switches) (s : ResourceServer) (r : DevicesReconciler) (snap : Snapshot) (pod : Pod)
  (ctr : Container)

/-- One token of the card passes the checks of Allocate: no other mode holds the card and, where slices
are gated, it has room for one. -/
def AcceptsCard (res : Resource) : Prop :=
  s.cardHeldInOtherMode r snap.devices.status res = none ∧
    ((slicedOccupancyForAllocate sw s r snap).isSome →
      (hintRoom sw s r snap pod ctr).shortage res (unitsCharged (s.requestedUnits ctr).1 1) = none)

/-- Allocate does not refuse the cards of some tokens. -/
def AllocateTakes (tokens : List ResourceToken) : Prop :=
  ∀ chosen, chooseCards s r snap pod ctr tokens = .ok chosen → refusal sw s r snap pod ctr chosen = none

/-- What the hint asks of a card that the container does not have already. -/
def Offers (card : PlacedCard) : Prop :=
  s.OpenAt snap.devices.status card ∧
    (0 < s.slicedUnits ctr →
      (hintRoom sw s r snap pod ctr).shortage card.resource (s.slicedUnits ctr) = none)

/-- **The readings agree**: a card the hint offers is free or in the server's mode by its name in the
ledger and by the reservations, and has a unit and a slot free where slices are gated but the container
names no units. -/
def ReadingsAgree : Prop :=
  s.allocationMode ≠ .visibility → s.allocationMode ≠ .partitioned →
    ∀ card ∈ s.placedCards snap.devices.spec, Offers sw s r snap pod ctr card →
      (statusModeOf snap.devices.status card.resource = .none ∨
        statusModeOf snap.devices.status card.resource = s.allocationMode) ∧
      (r.reservedModeForResource card.resource = .none ∨
        r.reservedModeForResource card.resource = s.allocationMode) ∧
      ((slicedOccupancyForAllocate sw s r snap).isSome → s.slicedUnits ctr ≤ 0 →
        (hintRoom sw s r snap pod ctr).shortage card.resource 1 = none)

variable {sw s r snap pod ctr}

/-! ### The checks of Allocate -/

theorem allocationMode_of_occupancy (h : (slicedOccupancyForAllocate sw s r snap).isSome) :
    s.allocationMode = .sliced := by
  unfold slicedOccupancyForAllocate at h
  split at h
  · cases h
  · rename_i hgate
    rw [not_or, not_not] at hgate
    exact hgate.1

/-- Allocate charges the units the hint asks for, one unit when there are none. -/
theorem unitsCharged_one (hmode : s.allocationMode = .sliced) :
    unitsCharged (s.requestedUnits ctr).1 1 =
      if 0 < s.slicedUnits ctr then s.slicedUnits ctr else 1 := by
  have hmax : resourceMaxUnits = 1600000 := rfl
  simp only [ResourceServer.requestedUnits, ResourceServer.unitsResourceName, hmode, Option.bind_some,
    ResourceServer.slicedUnits, unitsCharged, if_true, hmax]
  cases ctr.limits.lookup (.slicedUnits s.base) with
  | none => simp
  | some q =>
    by_cases hq : 0 < q
    · simp only [hq, if_true]
      split <;> omega
    · simp only [hq, if_false]
      split <;> omega

/-- **A list of tokens is taken when each of its cards has one token and is accepted.** -/
theorem refusal_eq_none_iff {tokens : List ResourceToken}
    (hone : ∀ t ∈ tokens, tokens.filter (·.resource = t.resource) = [t]) :
    refusal sw s r snap pod ctr ⟨⟨groupTokens tokens, ∅⟩, (s.requestedUnits ctr).1, ""⟩ = none ↔
      ∀ t ∈ tokens, AcceptsCard sw s r snap pod ctr t.resource := by
  have hmem : ∀ res, res ∈ (groupTokens tokens).keys ↔ ∃ t ∈ tokens, t.resource = res :=
    fun res => AList.mem_keys.symm.trans mem_groupTokens
  have hcount : ∀ t ∈ tokens, (((groupTokens tokens).lookup t.resource).getD []).length = 1 := by
    intro t ht
    rw [lookup_groupTokens, hone t ht]
    rfl
  have hcross : s.crossModeCard r snap.devices.status (groupTokens tokens) = none ↔
      ∀ t ∈ tokens, s.cardHeldInOtherMode r snap.devices.status t.resource = none := by
    rw [s.crossModeCard_eq_none]
    simp only [hmem]
    exact ⟨fun h t ht => h _ ⟨t, ht, rfl⟩, fun h res ⟨t, ht, hres⟩ => hres ▸ h t ht⟩
  have hover : ∀ o, slicedOvercommit ⟨snap.devices, some o, ⟨pod.uid, ctr.name⟩⟩ (groupTokens tokens)
      (s.requestedUnits ctr).1 = none ↔ ∀ t ∈ tokens, SlicedRoom.shortage
        ⟨snap.devices, some o, ⟨pod.uid, ctr.name⟩⟩ t.resource
          (unitsCharged (s.requestedUnits ctr).1 1) = none := by
    intro o
    simp only [slicedOvercommit, findSome?_eq_none_iff, mem_insertionSort, hmem,
      Option.map_eq_none_iff]
    constructor
    · intro h t ht
      have := h _ ⟨t, ht, rfl⟩
      rwa [hcount t ht] at this
    · rintro h _ ⟨t, ht, rfl⟩
      rw [hcount t ht]
      exact h t ht
  unfold refusal AcceptsCard hintRoom
  cases hx : s.crossModeCard r snap.devices.status (groupTokens tokens) with
  | some held =>
    refine iff_of_false (Option.some_ne_none _) fun h => ?_
    rw [hcross.mpr fun t ht => (h t ht).1] at hx
    cases hx
  | none =>
    have hfree := hcross.mp hx
    cases slicedOccupancyForAllocate sw s r snap with
    | none => exact iff_of_true rfl fun t ht => ⟨hfree t ht, by simp⟩
    | some o =>
      dsimp only
      rw [Option.map_eq_none_iff, hover]
      exact ⟨fun h t ht => ⟨hfree t ht, fun _ => h t ht⟩, fun h t ht => (h t ht).2 rfl⟩

/-! ### The tokens of the hint -/

/-- A token of the hint comes from a card the walk met, and its card tells which token it is. -/
theorem of_mem_hint {req : PreferredRequest} {t : ResourceToken}
    (h : t ∈ getPreferredAllocation sw s r snap [] pod ctr req) :
    ∃ card ∈ s.placedCards snap.devices.spec, t.resource = card.resource ∧
      s.OpenAt snap.devices.status card ∧
      (req.mustIncluded.first card.resource = some t ∨
        req.mustIncluded.first card.resource = none ∧ req.available.first card.resource = some t ∧
          Offers sw s r snap pod ctr card) := by
  unfold getPreferredAllocation at h
  split at h
  · cases h
  rw [ResourceServer.preferredTokens_nil] at h
  dsimp only at h
  split at h
  · cases h
  obtain ⟨card, hcard, htake⟩ := mem_filterMap.mp (mem_of_mem_take h)
  obtain ⟨-, hopen, hfrom⟩ := ResourceServer.of_visit_eq_take (ResourceServer.tokenAt_eq_some.mp htake)
  refine ⟨card, (s.perm_walkOrder _ _ _).mem_iff.mp hcard, ?_, hopen, ?_⟩
  · obtain hm | ⟨-, ha, -⟩ := hfrom
    · exact (of_first_eq_some hm).2
    · exact (of_first_eq_some ha).2
  · exact hfrom.imp_right fun ⟨hm, ha, hroom⟩ => ⟨hm, ha, hopen, hroom⟩

/-- As a set the hint has one token on each of its cards. -/
theorem filter_dedup_hint {req : PreferredRequest} {t : ResourceToken}
    (h : t ∈ (getPreferredAllocation sw s r snap [] pod ctr req).dedup) :
    (getPreferredAllocation sw s r snap [] pod ctr req).dedup.filter (·.resource = t.resource) = [t] := by
  have hsame : ∀ t' ∈ (getPreferredAllocation sw s r snap [] pod ctr req).dedup,
      decide (t'.resource = t.resource) = (t' == t) := by
    intro t' ht'
    rw [Bool.eq_iff_iff, decide_eq_true_iff, beq_iff_eq]
    refine ⟨fun hres => ?_, fun heq => heq ▸ rfl⟩
    obtain ⟨card, -, hcard, -, hfrom⟩ := of_mem_hint (mem_dedup.mp h)
    obtain ⟨card', -, hcard', -, hfrom'⟩ := of_mem_hint (mem_dedup.mp ht')
    rw [← hcard', hres, hcard] at hfrom'
    grind
  rw [filter_congr hsame, filter_beq, count_eq_one_of_mem (nodup_dedup _) h]
  rfl

theorem takes_hint_iff (hp : s.allocationMode ≠ .partitioned)
    (req : PreferredRequest) :
    AllocateTakes sw s r snap pod ctr (getPreferredAllocation sw s r snap [] pod ctr req).dedup ↔
      ∀ t ∈ getPreferredAllocation sw s r snap [] pod ctr req,
        AcceptsCard sw s r snap pod ctr t.resource := by
  have hchoose : ∀ tokens, chooseCards s r snap pod ctr tokens
      = .ok ⟨⟨groupTokens tokens, ∅⟩, (s.requestedUnits ctr).1, ""⟩ := fun tokens => by
    simp [chooseCards, hp]
  simp only [AllocateTakes, hchoose, Except.ok.injEq, forall_eq']
  rw [refusal_eq_none_iff fun t ht => filter_dedup_hint ht]
  simp only [mem_dedup]

/-- An offered card is accepted exactly when the readings of it agree. -/
theorem acceptsCard_iff {card : PlacedCard} (h : Offers sw s r snap pod ctr card) :
    AcceptsCard sw s r snap pod ctr card.resource ↔
      (statusModeOf snap.devices.status card.resource = .none ∨
        statusModeOf snap.devices.status card.resource = s.allocationMode) ∧
      (r.reservedModeForResource card.resource = .none ∨
        r.reservedModeForResource card.resource = s.allocationMode) ∧
      ((slicedOccupancyForAllocate sw s r snap).isSome → s.slicedUnits ctr ≤ 0 →
        (hintRoom sw s r snap pod ctr).shortage card.resource 1 = none) := by
  rw [AcceptsCard, s.cardHeldInOtherMode_eq_none, and_assoc]
  refine and_congr_right fun _ => and_congr_right fun _ => forall_congr' fun hocc => ?_
  rw [unitsCharged_one (allocationMode_of_occupancy hocc)]
  split
  · rename_i hpos
    exact iff_of_true (h.2 hpos) fun hle => absurd hpos hle.not_gt
  · rename_i hle
    exact ⟨fun h _ => h, fun h => h (not_lt.mp hle)⟩

/-- A request for one token of one card. -/
def askFor (res : Resource) : PreferredRequest := { availableDeviceIDs := [⟨res, 0⟩], allocationSize := 1 }

/-- A card the hint would offer is hinted when it alone is available. -/
theorem mem_hint_askFor (hv : s.allocationMode ≠ .visibility) (hp : s.allocationMode ≠ .partitioned)
    {card : PlacedCard} (hcard : card ∈ s.placedCards snap.devices.spec)
    (h : Offers sw s r snap pod ctr card) :
    ⟨card.resource, 0⟩ ∈ getPreferredAllocation sw s r snap [] pod ctr (askFor card.resource) := by
  have hfirst : (askFor card.resource).available.first card.resource = some ⟨card.resource, 0⟩ := by
    obtain ⟨t, ht⟩ := Option.isSome_iff_exists.mp
      (first_isSome.mpr ⟨⟨card.resource, 0⟩, mem_singleton_self _, rfl⟩)
    rw [← mem_singleton.mp (of_first_eq_some ht).1]
    exact ht
  have hgives : s.tokenAt (hintRoom sw s r snap pod ctr) (askFor card.resource) (s.slicedUnits ctr) card
      = some ⟨card.resource, 0⟩ := by
    have hno : (askFor card.resource).mustIncluded.first card.resource = none :=
      first_eq_none.mpr fun _ h => nomatch h
    have hroom : ¬ (0 < s.slicedUnits ctr ∧
        (hintRoom sw s r snap pod ctr).shortage card.resource (s.slicedUnits ctr) ≠ none) :=
      fun hshort => hshort.2 (h.2 hshort.1)
    have hopen : s.OpenAt (hintRoom sw s r snap pod ctr).devs.status card := h.1
    rw [ResourceServer.tokenAt_eq_some, ResourceServer.visit, hfirst]
    simp only [hno, hopen, hroom, not_true_eq_false, if_false, ne_eq, false_and]
  have hmem := mem_filterMap.mpr ⟨card, (s.perm_walkOrder (hintRoom sw s r snap pod ctr)
    (askFor card.resource).mustIncluded (s.slicedUnits ctr)).mem_iff.mpr hcard, hgives⟩
  -- the walk takes one token, and there is no other
  rw [getPreferredAllocation, if_neg (by simp [hv, hp]), ResourceServer.preferredTokens_nil]
  dsimp only
  rw [if_neg (show ¬ _ < (askFor card.resource).allocationSize from
    not_lt.mpr (length_pos_of_mem hmem))]
  obtain ⟨t, takes, htakes⟩ := exists_cons_of_ne_nil (ne_nil_of_mem hmem)
  obtain ⟨card', -, htake⟩ := mem_filterMap.mp (htakes ▸ mem_cons_self : t ∈ _)
  obtain ⟨-, -, hm | ⟨-, ha, -⟩⟩ :=
    ResourceServer.of_visit_eq_take (ResourceServer.tokenAt_eq_some.mp htake)
  · exact absurd (of_first_eq_some hm).1 not_mem_nil
  · rw [htakes, mem_singleton.mp (of_first_eq_some ha).1]
    exact mem_singleton_self _

/-- **Every hint is taken exactly when the readings agree.**  What must be included is echoed unseen, so it
has to be acceptable by itself; kubelet reads the hint as a set. -/
theorem hint_taken_iff (sw : Switches) (s : ResourceServer) (r : DevicesReconciler) (snap : Snapshot)
    (pod : Pod) (ctr : Container) :
    (∀ req : PreferredRequest,
      (∀ t ∈ req.mustIncludeDeviceIDs, AcceptsCard sw s r snap pod ctr t.resource) →
      getPreferredAllocation sw s r snap [] pod ctr req ≠ [] →
        AllocateTakes sw s r snap pod ctr (getPreferredAllocation sw s r snap [] pod ctr req).dedup) ↔
      ReadingsAgree sw s r snap pod ctr := by
  constructor
  · intro h hv hp card hcard hoffers
    have hmem := mem_hint_askFor hv hp hcard hoffers
    have htakes := h (askFor card.resource) (fun _ ht => nomatch ht)
      (ne_nil_of_mem hmem)
    exact (acceptsCard_iff hoffers).mp ((takes_hint_iff hp _).mp htakes _ hmem)
  · intro h req hmust hne
    have hmode : ¬ (s.allocationMode = .visibility ∨ s.allocationMode = .partitioned) := fun hmode =>
      hne (if_pos hmode)
    rw [not_or] at hmode
    refine (takes_hint_iff hmode.2 req).mpr fun t ht => ?_
    obtain ⟨card, hcard, hres, -, hm | ⟨-, -, hoffers⟩⟩ := of_mem_hint ht
    · exact hmust t (of_first_eq_some hm).1
    · rw [hres]
      exact (acceptsCard_iff hoffers).mpr (h hmode.1 hmode.2 card hcard hoffers)

/-! ### Two hints that are refused -/

/-- Two cards that the ledger shows free. -/
def freePair : Snapshot :=
  ⟨{ spec := [⟨"g", "acme", 0, [{ id := "a" }, { id := "b" }]⟩]
     status := ⟨[⟨"g", "acme", [{ id := "a" }, { id := "b" }]⟩]⟩ }, []⟩

/-- The same cards, the ledger listing them the other way round and the first held whole. -/
def reorderedPair : Snapshot :=
  ⟨{ spec := [⟨"g", "acme", 0, [{ id := "a" }, { id := "b" }]⟩]
     status := ⟨[⟨"g", "acme", [{ id := "b" }, { id := "a", mode := .exclusive }]⟩]⟩ }, []⟩

/-- The first card was just given away whole and the ledger does not show it yet. -/
def wholeReserved : DevicesReconciler :=
  DevicesReconciler.reserveDevices {} "q" "d"
    ⟨[⟨"g", "acme", [{ id := "a", mode := .exclusive, allocated := resourceMaxUnits }]⟩]⟩ []

def sharedServer : ResourceServer := ⟨"acme", "acme.com/gpu", .shared⟩

def oneOfPair : PreferredRequest :=
  { availableDeviceIDs := [⟨⟨"g", "a"⟩, 0⟩, ⟨⟨"g", "b"⟩, 0⟩], allocationSize := 1 }

/-- **A card held whole is hinted to a shared container**, and the Allocate that follows refuses it while
the other card is free: once the card is only reserved, once the ledger lists it at another place. -/
theorem held_card_hinted :
    (getPreferredAllocation {} sharedServer wholeReserved freePair [] { uid := "p" } { name := "c" }
        oneOfPair = [⟨⟨"g", "a"⟩, 0⟩] ∧
      ¬ AllocateTakes {} sharedServer wholeReserved freePair { uid := "p" } { name := "c" }
        [⟨⟨"g", "a"⟩, 0⟩]) ∧
    (getPreferredAllocation {} sharedServer {} reorderedPair [] { uid := "p" } { name := "c" }
        oneOfPair = [⟨⟨"g", "a"⟩, 0⟩] ∧
      ¬ AllocateTakes {} sharedServer {} reorderedPair { uid := "p" } { name := "c" }
        [⟨⟨"g", "a"⟩, 0⟩]) := by
  refine ⟨⟨by decide +kernel, fun h => ?_⟩, by decide +kernel, fun h => ?_⟩
  · have hnone := h _ rfl
    exact absurd hnone (by decide +kernel)
  · have hnone := h _ rfl
    exact absurd hnone (by decide +kernel)

end GpuStack
