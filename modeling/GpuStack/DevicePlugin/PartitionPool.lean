import GpuStack.DevicePlugin.Server

/-!
# DevicePlugin/PartitionPool — the partition tokens a node advertises

The partition tokens of a node are one pool.  Every token of every partitioned card is listed; the held
ones are healthy, and of the rest as many as the room of the healthy cards, allocated and remaining
instances together, leaves after the held ones.

The held tokens of an unhealthy card are taken out of that room though the card's own instances are not
in it: the free tokens match the remaining instances exactly if no unhealthy card carries a live instance,
or it does not show (`partition_tokens_match_room_iff`).
-/

namespace GpuStack

open List

/-- A token as kubelet is told of it. -/
structure AdvertisedDevice where
  id : ResourceToken
  healthy : Bool
deriving DecidableEq, Repr

/-- The tokens a partitioned card advertises. -/
def Resource.deviceIDs (res : Resource) (poolSize : ℤ) : List ResourceToken :=
  (List.range poolSize.toNat).map fun i => ⟨res, i⟩

/-- The row carries a usable ledger of partitions. -/
def partitionLedgerReady (acc : AcceleratorAllocation) : Bool :=
  acc.allocatedProfiles ≠ [] || acc.remainingProfiles ≠ []

/-- The live instances of a row. -/
def AcceleratorAllocation.instances (acc : AcceleratorAllocation) : ℤ :=
  (acc.allocatedProfiles.map AcceleratorProfileCount.count).sum

/-- The most instances of one profile that a row has room for. -/
def AcceleratorAllocation.mostRemaining (acc : AcceleratorAllocation) : ℤ :=
  acc.remainingProfiles.foldl (fun n p => max n p.count) 0

/-- A card's row of the ledger. -/
def ledgerRow (status : DevicesStatus) (res : Resource) : Option AcceleratorAllocation :=
  (status.rows.find? fun row => row.1 = res).map Prod.snd

/-- How many instances a card accounts for; without a ledger, as many as it can ever host. -/
def partitionRoomOf (status : DevicesStatus) (res : Resource) (ceiling : ℤ) : ℤ :=
  match ledgerRow status res with
  | none => ceiling
  | some acc => if partitionLedgerReady acc then acc.instances + acc.mostRemaining else ceiling

/-- The partitioned cards of the server's manufacturer. -/
def ResourceServer.partitionedCards (s : ResourceServer) (spec : List DevicesGroup) :
    List (Resource × DevicesGroup × Accelerator) :=
  (specCards spec).filter fun card =>
    card.2.1.manufacturer = s.manufacturer && isPartitioned card.2.2.status

/-- The tokens a node lists. -/
def ResourceServer.partitionIDs (s : ResourceServer) (spec : List DevicesGroup) : List ResourceToken :=
  (s.partitionedCards spec).flatMap fun card => card.1.deviceIDs card.2.2.status.physicalSliced.count

/-- The room of the healthy cards. -/
def ResourceServer.partitionRoom (s : ResourceServer) (devs : Devices) : ℤ :=
  (((s.partitionedCards devs.spec).filter fun card => !card.2.2.status.unhealthy).map fun card =>
    partitionRoomOf devs.status card.1 card.2.2.status.physicalSliced.count).sum

/-- Mark the tokens in order: the held ones healthy, the others while there is room. -/
def markHealth (held : Finset ResourceToken) (room : ℤ) : ℤ → List ResourceToken → List AdvertisedDevice
  | _, [] => []
  | granted, id :: ids =>
    if id ∈ held then ⟨id, true⟩ :: markHealth held room granted ids
    else if granted < room then ⟨id, true⟩ :: markHealth held room (granted + 1) ids
    else ⟨id, false⟩ :: markHealth held room granted ids

/-- **The pool a node advertises.** -/
def ResourceServer.getPartitionListAndWatchResponse (s : ResourceServer) (devs : Devices)
    (held : Finset ResourceToken) : List AdvertisedDevice :=
  let ids := s.partitionIDs devs.spec
  markHealth held (s.partitionRoom devs) (ids.countP (· ∈ held)) ids

/-! ### Marking -/

theorem map_id_markHealth (held : Finset ResourceToken) (room granted : ℤ) (ids : List ResourceToken) :
    (markHealth held room granted ids).map AdvertisedDevice.id = ids := by
  induction ids generalizing granted with
  | nil => rfl
  | cons id ids ih =>
    unfold markHealth
    split_ifs <;> rw [map_cons, ih]

theorem healthy_of_held {held : Finset ResourceToken} {room granted : ℤ} {ids : List ResourceToken}
    {dev : AdvertisedDevice} (h : dev ∈ markHealth held room granted ids) (hheld : dev.id ∈ held) :
    dev.healthy = true := by
  induction ids generalizing granted with
  | nil => cases h
  | cons id ids ih =>
    unfold markHealth at h
    split_ifs at h with hid hroom
    all_goals
      rcases mem_cons.mp h with rfl | h
      · first
        | rfl
        | exact absurd hheld hid
      · exact ih h

/-- The tokens that are free and healthy. -/
def freeHealthy (held : Finset ResourceToken) (devs : List AdvertisedDevice) : ℕ :=
  devs.countP fun dev => dev.id ∉ held && dev.healthy

/-- **The free tokens that are healthy fill the room the granted ones leave.** -/
theorem freeHealthy_markHealth (held : Finset ResourceToken) (room granted : ℤ)
    (ids : List ResourceToken) :
    freeHealthy held (markHealth held room granted ids) =
      min (ids.countP (· ∉ held)) (room - granted).toNat := by
  unfold freeHealthy
  induction ids generalizing granted with
  | nil => simp [markHealth]
  | cons id ids ih =>
    unfold markHealth
    split_ifs with hid hroom
    · rw [countP_cons_of_neg (by simp [hid]), countP_cons_of_neg (by simp [hid]), ih]
    · rw [countP_cons_of_pos (by simp [hid]), countP_cons_of_pos (by simp [hid]), ih]
      omega
    · rw [countP_cons_of_neg (by simp), countP_cons_of_pos (by simp [hid]), ih]
      omega

/-! ### The room -/

/-- A card's live instances in the ledger. -/
def liveInstances (status : DevicesStatus) (card : Resource × DevicesGroup × Accelerator) : ℤ :=
  ((ledgerRow status card.1).map AcceleratorAllocation.instances).getD 0

/-- The instances a card can still host: the most of one profile, or all it can ever host where there
is no ledger yet. -/
def remainingInstances (status : DevicesStatus) (card : Resource × DevicesGroup × Accelerator) : ℤ :=
  match ledgerRow status card.1 with
  | none => card.2.2.status.physicalSliced.count
  | some acc =>
    if partitionLedgerReady acc then acc.mostRemaining else card.2.2.status.physicalSliced.count

/-- The room of a card is what it carries and what it can still host. -/
theorem partitionRoomOf_eq (status : DevicesStatus) (card : Resource × DevicesGroup × Accelerator) :
    partitionRoomOf status card.1 card.2.2.status.physicalSliced.count =
      liveInstances status card + remainingInstances status card := by
  unfold partitionRoomOf liveInstances remainingInstances
  cases ledgerRow status card.1 with
  | none => simp
  | some acc =>
    cases hready : partitionLedgerReady acc with
    | true => simp [hready]
    | false =>
      -- A row that is not ready carries nothing.
      have hempty : acc.allocatedProfiles = [] := by
        simpa [partitionLedgerReady] using (Bool.or_eq_false_iff.mp hready).1
      simp [hready, AcceleratorAllocation.instances, hempty]

theorem mostRemaining_nonneg (acc : AcceleratorAllocation) : 0 ≤ acc.mostRemaining := by
  unfold AcceleratorAllocation.mostRemaining
  suffices ∀ (ps : List AcceleratorProfileCount) (n : ℤ), 0 ≤ n →
      0 ≤ ps.foldl (fun n p => max n p.count) n from this _ 0 le_rfl
  intro ps
  induction ps with
  | nil => exact fun _ h => h
  | cons p ps ih => exact fun n h => ih _ (h.trans (le_max_left _ _))

theorem remainingInstances_nonneg (status : DevicesStatus)
    {card : Resource × DevicesGroup × Accelerator} (h : isPartitioned card.2.2.status = true) :
    0 ≤ remainingInstances status card := by
  have hcount : 0 ≤ card.2.2.status.physicalSliced.count := by
    have : 0 < card.2.2.status.physicalSliced.count := by simpa [isPartitioned] using h
    omega
  unfold remainingInstances
  cases ledgerRow status card.1 with
  | none => exact hcount
  | some acc =>
    dsimp only
    split
    · exact mostRemaining_nonneg acc
    · exact hcount

/-- A sum over the cards, by their health. -/
theorem sum_by_health (cards : List (Resource × DevicesGroup × Accelerator))
    (f : Resource × DevicesGroup × Accelerator → ℤ) :
    (cards.map f).sum = ((cards.filter fun card => !card.2.2.status.unhealthy).map f).sum +
      ((cards.filter fun card => card.2.2.status.unhealthy).map f).sum := by
  induction cards with
  | nil => rfl
  | cons card cards ih =>
    cases hhealth : card.2.2.status.unhealthy <;>
      simp only [map_cons, sum_cons, filter_cons, hhealth, Bool.not_true, Bool.not_false,
        if_true, if_false, Bool.false_eq_true, ih] <;> ring

/-! ### The pool -/

variable (s : ResourceServer) (devs : Devices)

/-- The live instances of the server's cards. -/
def ResourceServer.allLive : ℤ := ((s.partitionedCards devs.spec).map (liveInstances devs.status)).sum

/-- The live instances of the unhealthy ones. -/
def ResourceServer.strandedLive : ℤ :=
  (((s.partitionedCards devs.spec).filter fun card => card.2.2.status.unhealthy).map
    (liveInstances devs.status)).sum

/-- What the healthy ones can still host. -/
def ResourceServer.healthyRemaining : ℤ :=
  (((s.partitionedCards devs.spec).filter fun card => !card.2.2.status.unhealthy).map
    (remainingInstances devs.status)).sum

theorem ResourceServer.partitionRoom_eq :
    s.partitionRoom devs = s.allLive devs - s.strandedLive devs + s.healthyRemaining devs := by
  have hsum := sum_by_health (s.partitionedCards devs.spec) (liveInstances devs.status)
  unfold partitionRoom allLive strandedLive healthyRemaining
  simp only [partitionRoomOf_eq, hsum, sum_map_add]
  ring

theorem ResourceServer.healthyRemaining_nonneg : 0 ≤ s.healthyRemaining devs := by
  refine sum_nonneg fun n hn => ?_
  obtain ⟨card, hcard, rfl⟩ := mem_map.mp hn
  have := (mem_filter.mp (mem_of_mem_filter hcard)).2
  exact remainingInstances_nonneg _ (Bool.and_eq_true_iff.mp this).2

/-- **The advertised tokens match the room exactly if no unhealthy card takes from it.**  With as many
held tokens as live instances, every held token is healthy and the list is the same whichever are held;
and the free tokens that are healthy are as many as there are free tokens or remaining instances, if and
only if no live instance stands on an unhealthy card, or nothing remains on the healthy ones, or the free
tokens are no more than what remains there less the instances of the unhealthy cards. -/
theorem partition_tokens_match_room_iff (held : Finset ResourceToken)
    (hheld : ((s.partitionIDs devs.spec).countP (· ∈ held) : ℤ) = s.allLive devs) :
    (∀ dev ∈ s.getPartitionListAndWatchResponse devs held, dev.id ∈ held → dev.healthy = true) ∧
      (s.getPartitionListAndWatchResponse devs held).map AdvertisedDevice.id = s.partitionIDs devs.spec ∧
      ((freeHealthy held (s.getPartitionListAndWatchResponse devs held) : ℤ) =
          min ((s.partitionIDs devs.spec).countP (· ∉ held) : ℤ) (s.healthyRemaining devs) ↔
        s.strandedLive devs = 0 ∨ (0 ≤ s.strandedLive devs ∧ s.healthyRemaining devs = 0) ∨
          ((s.partitionIDs devs.spec).countP (· ∉ held) : ℤ) ≤
            min (s.healthyRemaining devs)
              (max 0 (s.healthyRemaining devs - s.strandedLive devs))) := by
  refine ⟨fun dev hdev => healthy_of_held hdev, map_id_markHealth _ _ _ _, ?_⟩
  have hroom := s.partitionRoom_eq devs
  have hremaining := s.healthyRemaining_nonneg devs
  rw [ResourceServer.getPartitionListAndWatchResponse, freeHealthy_markHealth, hheld]
  omega

/-- Two partitioned cards that host two instances each. -/
def twoPartitioned (unhealthy : Bool) (live : ℤ) : Devices where
  spec := [{ id := "g", manufacturer := "nvidia", accelerators :=
    [{ id := "a", status := { physicalSliced := { count := 2 } } },
     { id := "b", status := { unhealthy := unhealthy, physicalSliced := { count := 2 } } }] }]
  status := ⟨[⟨"g", "nvidia",
    [{ id := "a", remainingProfiles := [⟨"1g.10gb", 1⟩] },
     { id := "b", allocatedProfiles := [⟨"1g.10gb", live⟩], remainingProfiles := [⟨"1g.10gb", 1⟩] }]⟩]⟩

def partitionServer : ResourceServer := ⟨"nvidia", "nvidia.com/gpu", .partitioned⟩

theorem partition_tokens_match_room_healthy :
    (freeHealthy {⟨⟨"g", "b"⟩, 0⟩} (partitionServer.getPartitionListAndWatchResponse (twoPartitioned false 1)
      {⟨⟨"g", "b"⟩, 0⟩}) : ℤ) = 2 :=
  ((partition_tokens_match_room_iff partitionServer (twoPartitioned false 1) {⟨⟨"g", "b"⟩, 0⟩}
    (by decide +kernel)).2.2.mpr (.inl (by decide +kernel))).trans (by decide +kernel)

/-- One instance is live on an unhealthy card, and the healthy card has room for one; no free token is
healthy. -/
theorem stranded_instance_hides_room :
    ((partitionServer.partitionIDs (twoPartitioned true 1).spec).countP
        (· ∈ ({⟨⟨"g", "b"⟩, 0⟩} : Finset ResourceToken)) : ℤ) =
          partitionServer.allLive (twoPartitioned true 1) ∧
      partitionServer.healthyRemaining (twoPartitioned true 1) = 1 ∧
      (partitionServer.partitionIDs (twoPartitioned true 1).spec).countP
        (· ∉ ({⟨⟨"g", "b"⟩, 0⟩} : Finset ResourceToken)) = 3 ∧
      freeHealthy {⟨⟨"g", "b"⟩, 0⟩} (partitionServer.getPartitionListAndWatchResponse
        (twoPartitioned true 1) {⟨⟨"g", "b"⟩, 0⟩}) = 0 := by
  decide +kernel

end GpuStack
