import GpuStack.Admission.Demand

/-!
# Admission/Counting — how many cards a podset asks for

`podSetFamilyDemands` walks the resources of a podset's containers and keeps, for each family, the cards
asked for, the strictest units and the profile; at the end the cards are scaled to the podset's Pods.
Every quantity is clamped to 32 bits as it is read and the product as it is written, but the sum in
between is a plain 32-bit one.

So the number of cards is right unless that sum wraps (`counts_true_demand_iff`), and a sum that wraps may
leave fewer cards than are asked for, or none.
-/

namespace GpuStack

open List

/-! ### 32-bit numbers -/

def maxInt32 : ℤ := 2147483647

/-- Narrow a value to 32 bits, saturating at the bounds. -/
def clampInt32 (v : ℤ) : ℤ := if maxInt32 < v then maxInt32 else if v < 0 then 0 else v

/-- What 32-bit arithmetic makes of a value. -/
def wrapInt32 (v : ℤ) : ℤ := v.bmod (2 ^ 32)

/-! ### Resource names -/

/-- What the operator knows of resource names: those of the accelerators, and what the key of a partition
profile begins with, for each manufacturer that has such keys. -/
structure Naming where
  accelerators : List String
  profileHeads : List String

/-- What comes before a suffix. -/
def cutSuffix (suffix s : String) : Option String :=
  if suffix.toList.isSuffixOf s.toList then
    some (String.ofList (s.toList.take (s.toList.length - suffix.toList.length)))
  else none

/-- What comes after a head. -/
def cutHead (head s : String) : Option String :=
  if head.toList.isPrefixOf s.toList then some (String.ofList (s.toList.drop head.toList.length)) else none

def visibilityHead : String := "device.gpustack.ai/"

def resourceFamilyFixedSuffixes : List (String × ResourceFamily) :=
  [(".sliced.memory-percentage", .sliced), (".sliced.cores-percentage", .sliced),
   (".sliced.memory-mib", .sliced), (".partitioned.units", .partitioned), (".sliced.units", .sliced),
   (".partitioned", .partitioned), (".sliced", .sliced), (".shared", .shared)]

namespace Naming

variable (N : Naming)

/-- The profile a per-profile partition key names. -/
def partitionedProfileOf (name : String) : Option String :=
  N.profileHeads.findSome? fun head => (cutHead head name).filter (· ≠ "")

/-- The family of a resource name; the visibility keys and all other names are of none of the four. -/
def resourceFamilyOf (name : String) : Option ResourceFamily :=
  if (cutHead visibilityHead name).isSome then none
  else if (N.partitionedProfileOf name).isSome then some .partitioned
  else
    (resourceFamilyFixedSuffixes.findSome? fun e =>
      if (cutSuffix e.1 name).any (· ∈ N.accelerators) then some e.2 else none).or
      (if name ∈ N.accelerators then some .exclusive else none)

end Naming

/-- The key's value is the family's card count. -/
def ResourceFamily.isCardKey (name : String) : ResourceFamily → Bool
  | .exclusive => true
  | .shared => (cutSuffix ".shared" name).isSome
  | .sliced => (cutSuffix ".sliced" name).isSome
  | .partitioned => (cutSuffix ".partitioned" name).isSome

/-- The key's value is the units of one card. -/
def isUnitsKey (name : String) : Bool :=
  (cutSuffix ".sliced.units" name).isSome || (cutSuffix ".partitioned.units" name).isSome

/-! ### Podsets -/

/-- A container's resources, by name. -/
structure PodSetContainer where
  limits : List (String × ℤ) := []
  requests : List (String × ℤ) := []

/-- Limits and requests in one, requests taking precedence. -/
def PodSetContainer.mergedContainerResources (ctr : PodSetContainer) : List (String × ℤ) :=
  if ctr.limits = [] then ctr.requests
  else ctr.requests ++ ctr.limits.filter fun r => r.1 ∉ ctr.requests.map Prod.fst

structure PodSet where
  initContainers : List PodSetContainer := []
  containers : List PodSetContainer := []

/-- Every resource of every container. -/
def PodSet.resources (ps : PodSet) : List (String × ℤ) :=
  (ps.initContainers ++ ps.containers).flatMap PodSetContainer.mergedContainerResources

/-- The containers that need so many cards, of some needs. -/
def containersOf (needs : List SharedNeed) (cards : ℕ) : ℕ :=
  ((needs.filter (·.cards = cards)).map SharedNeed.containers).sum

/-- Some needs with others folded in, those scaled first; one for each card count, the largest first. -/
def mergeSharedNeeds (acc add : List SharedNeed) (times : ℕ) : List SharedNeed :=
  let counts := (((acc ++ add).map SharedNeed.cards).dedup).insertionSort (· ≥ ·)
  (counts.map fun cards => (⟨cards, (clampInt32
    (containersOf acc cards + containersOf add cards * times : ℕ)).toNat⟩ : SharedNeed)).filter
      fun need => 0 < need.containers

/-- A family's demand while it is counted: the cards are a 32-bit number. -/
structure Counting where
  cards : ℤ := 0
  unitsPerCard : ℕ := 0
  profile : String := ""
  sharedNeeds : List SharedNeed := []
deriving DecidableEq

/-- Count one resource for a family. -/
def Naming.count (N : Naming) (family : ResourceFamily) (d : Counting) (r : String × ℤ) : Counting :=
  if N.resourceFamilyOf r.1 ≠ some family then d
  else if isUnitsKey r.1 then { d with unitsPerCard := max d.unitsPerCard (clampInt32 r.2).toNat }
  else if family.isCardKey r.1 then
    { d with
      cards := wrapInt32 (d.cards + clampInt32 r.2)
      sharedNeeds := if family = .shared ∧ 0 < r.2 then
        mergeSharedNeeds d.sharedNeeds [⟨(clampInt32 r.2).toNat, 1⟩] 1 else d.sharedNeeds }
  else match N.partitionedProfileOf r.1 with
    | none => d
    | some profile =>
      if d.profile = "" ∨ profile < d.profile then { d with profile := profile } else d

/-- A family's demand, for so many Pods; without a card there is none. -/
def Counting.demand (family : ResourceFamily) (count : ℕ) (d : Counting) : Option FamilyDemand :=
  let cards := clampInt32 (d.cards * count)
  if cards ≤ 0 then none
  else some
    { family := family, cards := cards.toNat, unitsPerCard := d.unitsPerCard, profile := d.profile
      flavor := "", sharedNeeds := mergeSharedNeeds [] d.sharedNeeds count }

/-- **The demands of a podset** for so many of its Pods, one for each family it asks cards of. -/
def podSetFamilyDemands (N : Naming) (ps : PodSet) (count : ℕ) : List FamilyDemand :=
  sortDemands ([.exclusive, .partitioned, .shared, .sliced].filterMap fun family =>
    (ps.resources.foldl (N.count family) {}).demand family count)

/-! ### The true demand -/

/-- The resource is cards of the family. -/
def Naming.asksCards (N : Naming) (family : ResourceFamily) (r : String × ℤ) : Bool :=
  N.resourceFamilyOf r.1 = some family && !isUnitsKey r.1 && family.isCardKey r.1

/-- The quantities a podset's containers give to a family's card keys. -/
def Naming.cardQuantities (N : Naming) (ps : PodSet) (family : ResourceFamily) : List ℤ :=
  (ps.resources.filter (N.asksCards family)).map Prod.snd

/-- The cards they ask for: a negative quantity asks for none. -/
def Naming.cardsPerPod (N : Naming) (ps : PodSet) (family : ResourceFamily) : ℕ :=
  ((N.cardQuantities ps family).map Int.toNat).sum

/-- The same with every quantity clamped to 32 bits. -/
def Naming.clampedCards (N : Naming) (ps : PodSet) (family : ResourceFamily) : ℤ :=
  ((N.cardQuantities ps family).map clampInt32).sum

/-- The cards recorded for a family, none where it has no demand. -/
def recordedCards (demands : List FamilyDemand) (family : ResourceFamily) : ℕ :=
  ((demands.find? fun d => d.family = family).map FamilyDemand.cards).getD 0

/-- The count is right: what is asked for or, if 32 bits cannot hold it, the most they can; and a family
that cards are asked of has a demand. -/
structure CountsTrueDemand (N : Naming) (ps : PodSet) (count : ℕ) (family : ResourceFamily) : Prop where
  cards : (recordedCards (podSetFamilyDemands N ps count) family : ℤ) =
    min ((count * N.cardsPerPod ps family : ℕ) : ℤ) maxInt32
  present : 0 < count * N.cardsPerPod ps family →
    ∃ d ∈ podSetFamilyDemands N ps count, d.family = family

/-! ### What is counted -/

theorem clampInt32_nonneg (v : ℤ) : 0 ≤ clampInt32 v := by
  unfold clampInt32 maxInt32
  split_ifs <;> omega

theorem clampInt32_eq (v : ℤ) : clampInt32 v = min (v.toNat : ℤ) maxInt32 := by
  unfold clampInt32 maxInt32
  split_ifs <;> omega

/-- Each resource adds to the cards or leaves them. -/
theorem Naming.cards_count (N : Naming) (family : ResourceFamily) (d : Counting) (r : String × ℤ) :
    (N.count family d r).cards =
      if N.asksCards family r then wrapInt32 (d.cards + clampInt32 r.2) else d.cards := by
  unfold Naming.count Naming.asksCards
  by_cases hfam : N.resourceFamilyOf r.1 = some family
  · cases hunits : isUnitsKey r.1 with
    | true => simp [hfam]
    | false =>
      cases hcard : family.isCardKey r.1 with
      | true => simp [hfam]
      | false =>
        simp only [hfam, ne_eq, not_true_eq_false, if_false, Bool.false_eq_true]
        cases N.partitionedProfileOf r.1 with
        | none => simp
        | some profile =>
          dsimp only
          split <;> simp
  · simp [hfam]

/-- **The cards counted are the clamped quantities, summed in 32 bits.** -/
theorem Naming.cards_foldl_count (N : Naming) (ps : PodSet) (family : ResourceFamily) :
    (ps.resources.foldl (N.count family) {}).cards = wrapInt32 (N.clampedCards ps family) := by
  suffices ∀ (rs : List (String × ℤ)) (d : Counting) (v : ℤ), d.cards = wrapInt32 v →
      (rs.foldl (N.count family) d).cards =
        wrapInt32 (v + (((rs.filter (N.asksCards family)).map Prod.snd).map clampInt32).sum) by
    have h := this ps.resources {} 0 rfl
    rwa [zero_add] at h
  intro rs
  induction rs with
  | nil =>
    intro d v hd
    simpa using hd
  | cons r rs ih =>
    intro d v hd
    rw [foldl_cons]
    have hcards := N.cards_count family d r
    split at hcards
    next hkey =>
      rw [ih (N.count family d r) (v + clampInt32 r.2), filter_cons_of_pos hkey, map_cons,
        map_cons, sum_cons, add_assoc]
      rw [hcards, hd, wrapInt32, wrapInt32, wrapInt32, Int.bmod_add_bmod]
    next hkey =>
      rw [ih (N.count family d r) v (hcards.trans hd), filter_cons_of_neg hkey]

variable {family : ResourceFamily} {count : ℕ}

theorem Counting.demand_eq_some {c : Counting} {d : FamilyDemand}
    (h : c.demand family count = some d) :
    d.family = family ∧ (d.cards : ℤ) = clampInt32 (c.cards * count) := by
  unfold Counting.demand at h
  dsimp only at h
  split at h
  · cases h
  next hpos =>
    rw [← Option.some.inj h]
    exact ⟨rfl, by dsimp only; omega⟩

theorem Counting.demand_eq_none {c : Counting} (h : c.demand family count = none) :
    clampInt32 (c.cards * count) = 0 := by
  unfold Counting.demand at h
  dsimp only at h
  split at h
  next hle => exact le_antisymm hle (clampInt32_nonneg _)
  · cases h

/-- The demands are those that were counted. -/
theorem mem_podSetFamilyDemands {N : Naming} {ps : PodSet} {d : FamilyDemand} :
    d ∈ podSetFamilyDemands N ps count ↔
      (ps.resources.foldl (N.count d.family) {}).demand d.family count = some d := by
  rw [podSetFamilyDemands, (perm_sortDemands _).mem_iff, mem_filterMap]
  constructor
  · rintro ⟨family, -, h⟩
    rwa [(Counting.demand_eq_some h).1]
  · intro h
    refine ⟨d.family, ?_, h⟩
    cases d.family <;> simp

/-- **The cards recorded for a family.** -/
theorem recordedCards_eq (N : Naming) (ps : PodSet) (count : ℕ) (family : ResourceFamily) :
    (recordedCards (podSetFamilyDemands N ps count) family : ℤ) =
      clampInt32 (wrapInt32 (N.clampedCards ps family) * count) := by
  rw [recordedCards, ← N.cards_foldl_count]
  have hfound : ∀ {d : FamilyDemand}, (podSetFamilyDemands N ps count).find?
      (fun d => d.family = family) = some d →
      (ps.resources.foldl (N.count family) {}).demand family count = some d := by
    intro d hfind
    have hfam : d.family = family := by simpa using find?_some hfind
    rw [← hfam]
    exact mem_podSetFamilyDemands.mp (mem_of_find?_eq_some hfind)
  cases hfind : (podSetFamilyDemands N ps count).find? fun d => d.family = family with
  | some d => exact (Counting.demand_eq_some (hfound hfind)).2
  | none =>
    cases hdemand : (ps.resources.foldl (N.count family) {}).demand family count with
    | none => exact (Counting.demand_eq_none hdemand).symm
    | some d =>
      have hfam := (Counting.demand_eq_some hdemand).1
      rw [← hfam] at hdemand
      have := find?_eq_none.mp hfind d (mem_podSetFamilyDemands.mpr hdemand)
      exact absurd (by simpa using hfam) this

/-! ### When the count is right -/

theorem Naming.clampedCards_nonneg (N : Naming) (ps : PodSet) (family : ResourceFamily) :
    0 ≤ N.clampedCards ps family := by
  refine sum_nonneg fun v hv => ?_
  obtain ⟨q, -, rfl⟩ := mem_map.mp hv
  exact clampInt32_nonneg q

/-- Clamped quantities sum to no more, and to as much unless one is clamped. -/
theorem Naming.clampedCards_le (N : Naming) (ps : PodSet) (family : ResourceFamily) :
    N.clampedCards ps family ≤ N.cardsPerPod ps family ∧
      (N.clampedCards ps family = N.cardsPerPod ps family ∨ maxInt32 ≤ N.clampedCards ps family) := by
  unfold Naming.clampedCards Naming.cardsPerPod
  induction N.cardQuantities ps family with
  | nil => simp
  | cons q qs ih =>
    have hnonneg : 0 ≤ (qs.map clampInt32).sum := by
      refine sum_nonneg fun v hv => ?_
      obtain ⟨q', -, rfl⟩ := mem_map.mp hv
      exact clampInt32_nonneg q'
    have hq := clampInt32_eq q
    simp only [map_cons, sum_cons, Nat.cast_add]
    unfold maxInt32 at hq ih ⊢
    omega

theorem wrapInt32_eq {v : ℤ} (h : 0 ≤ v) (hmax : v ≤ maxInt32) : wrapInt32 v = v := by
  unfold maxInt32 at hmax
  exact Int.bmod_eq_of_le (by omega) (by omega)

/-- A family with cards recorded has a demand. -/
theorem exists_demand_of_recordedCards_pos {demands : List FamilyDemand}
    (h : 0 < recordedCards demands family) : ∃ d ∈ demands, d.family = family := by
  unfold recordedCards at h
  cases hfind : demands.find? fun d => d.family = family with
  | none => simp [hfind] at h
  | some d => exact ⟨d, mem_of_find?_eq_some hfind, by simpa using find?_some hfind⟩

theorem countsTrueDemand_iff {N : Naming} {ps : PodSet} :
    CountsTrueDemand N ps count family ↔
      clampInt32 (wrapInt32 (N.clampedCards ps family) * count) =
        min ((count * N.cardsPerPod ps family : ℕ) : ℤ) maxInt32 := by
  rw [← recordedCards_eq]
  refine ⟨fun h => h.cards, fun h => ⟨h, fun hpos => exists_demand_of_recordedCards_pos ?_⟩⟩
  unfold maxInt32 at h
  omega

/-- **The count is right exactly if the sum does not wrap**, or its wrapping does not show: the podset
has no Pods, or so many that the product is past 32 bits all the same. -/
theorem counts_true_demand_iff (N : Naming) (ps : PodSet) (count : ℕ) (family : ResourceFamily) :
    CountsTrueDemand N ps count family ↔
      N.clampedCards ps family ≤ maxInt32 ∨ count = 0 ∨
        maxInt32 ≤ wrapInt32 (N.clampedCards ps family) * count := by
  have hnonneg := N.clampedCards_nonneg ps family
  obtain ⟨hle, hexact⟩ := N.clampedCards_le ps family
  rw [countsTrueDemand_iff, clampInt32_eq]
  rcases Nat.eq_zero_or_pos count with rfl | hcount
  · exact iff_of_true (by simp) (.inr (.inl rfl))
  by_cases hfits : N.clampedCards ps family ≤ maxInt32
  · -- The sum does not wrap.
    refine iff_of_true ?_ (.inl hfits)
    rw [wrapInt32_eq hnonneg hfits]
    rcases hexact with hsame | hclamped
    · rw [hsame, mul_comm, ← Nat.cast_mul, Int.toNat_natCast]
    · -- One quantity alone is past 32 bits.
      have hscaled : maxInt32 * 1 ≤ N.clampedCards ps family * count :=
        mul_le_mul hclamped (by exact_mod_cast hcount) (by decide) hnonneg
      have htrue : N.clampedCards ps family * count ≤ (count * N.cardsPerPod ps family : ℕ) := by
        rw [mul_comm, Nat.cast_mul]
        exact mul_le_mul_of_nonneg_left hle (Nat.cast_nonneg _)
      omega
  · -- It does, and what is asked for is past 32 bits.
    have htrue : N.clampedCards ps family * 1 ≤ N.cardsPerPod ps family * count :=
      mul_le_mul hle (by exact_mod_cast hcount) (by decide) (Nat.cast_nonneg _)
    rw [Nat.cast_mul, mul_comm (count : ℤ)]
    unfold maxInt32 at hfits ⊢
    omega

/-- Two containers that each ask for as many cards as 32 bits can count. -/
def hugePodSet : PodSet :=
  { containers := [{ requests := [("nvidia.com/gpu", maxInt32)] },
      { requests := [("nvidia.com/gpu", maxInt32)] }] }

/-- The two sum to `-2`, and the demand is dropped. -/
theorem huge_demand_dropped :
    Naming.cardsPerPod ⟨["nvidia.com/gpu"], []⟩ hugePodSet .exclusive = 4294967294 ∧
      podSetFamilyDemands ⟨["nvidia.com/gpu"], []⟩ hugePodSet 1 = [] := by
  decide +kernel

end GpuStack
