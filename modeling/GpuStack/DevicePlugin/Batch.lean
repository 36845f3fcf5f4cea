import GpuStack.DevicePlugin.Candidates
import GpuStack.DevicePlugin.Rollback
import GpuStack.Lib.Scan

/-!
# DevicePlugin/Batch — a batch of Allocates

Identical Pods are admitted together, so several Allocates of one server offer the same quantity of the
same resource one after another, and nothing in a call says which Pod it is for.  A call leaves a
reservation before the next one is resolved, and a container with a reservation ranks last; kubelet,
when asked, rules out the containers it has already served.  So as long as a candidate without a
reservation is left, each call is resolved to a new container.

The reservation is what tells two calls apart, and an allocation that names no card leaves none.  A
call whose cards have left the inventory is such a call.
-/

namespace GpuStack

open List

/-! ## What kubelet reports -/

/-- Devices of one resource that kubelet has handed to a container. -/
structure ContainerDevices where
  resourceName : ResourceName
  deviceIds : List String
deriving DecidableEq, Repr

structure ContainerResources where
  name : String
  devices : List ContainerDevices := []
deriving DecidableEq, Repr

/-- A Pod kubelet holds. -/
structure PodResources where
  key : NamespacedName
  containers : List ContainerResources := []
deriving DecidableEq, Repr

/-- Whether each container kubelet holds has a device of one resource. -/
structure KubeletPending where
  pods : AList fun _ : NamespacedName => AList fun _ : String => Bool

/-- The container holds a device of the resource. -/
def ContainerResources.holds (c : ContainerResources) (resName : ResourceName) : Bool :=
  c.devices.any fun d => d.resourceName = resName && d.deviceIds ≠ []

def kubeletPendingFrom (listed : List PodResources) (resName : ResourceName) : KubeletPending :=
  ⟨listed.foldl (fun pods p => pods.insert p.key
    (p.containers.foldl (fun ctrs c => ctrs.insert c.name (c.holds resName)) ∅)) ∅⟩

namespace KubeletPending

variable (k : KubeletPending)

/-- What kubelet reports of a container. -/
def reported (pod : Pod) (ctr : Container) : Option Bool :=
  (k.pods.lookup pod.key).bind (·.lookup ctr.name)

/-- kubelet may be allocating to this container: it holds the Pod, and does not report the container
as served.  A container it does not list cannot be ruled out. -/
def waitsForDevice (pod : Pod) (ctr : Container) : Bool :=
  match k.pods.lookup pod.key with
  | none => false
  | some ctrs => ctrs.lookup ctr.name ≠ some true

theorem reported_of_waits {pod : Pod} {ctr : Container} (h : k.waitsForDevice pod ctr = true) :
    k.reported pod ctr ≠ some true := by
  unfold waitsForDevice at h
  unfold reported
  cases hpod : k.pods.lookup pod.key with
  | none => simp
  | some ctrs => simpa [hpod] using h

end KubeletPending

/-! ## Calls that leave a reservation -/

/-- A card of the server's manufacturer that the inventory lists. -/
def ResourceServer.Lists (s : ResourceServer) (spec : List DevicesGroup) (res : Resource) : Prop :=
  ∃ card ∈ specCards spec, card.1 = res ∧ card.2.1.manufacturer = s.manufacturer

instance (s : ResourceServer) (spec : List DevicesGroup) (res : Resource) :
    Decidable (s.Lists spec res) :=
  inferInstanceAs (Decidable
    (∃ card ∈ specCards spec, card.1 = res ∧ card.2.1.manufacturer = s.manufacturer))

variable {s : ResourceServer}

variable {res : Resource}

theorem groups_accumulateAllocation_ne_nil {spec : List DevicesGroup} {tokensByCard : TokensByCard}
    {unitsPerToken : ℤ} (hlists : s.Lists spec res)
    (htokens : (tokensByCard.lookup res).isSome) :
    (s.accumulateAllocation spec tokensByCard unitsPerToken).groups ≠ [] := by
  obtain ⟨card, hcard, rfl, hman⟩ := hlists
  obtain ⟨ts, hts⟩ := Option.isSome_iff_exists.mp htokens
  intro hnil
  have hrow : (card.1, s.chargedEntry unitsPerToken card.2.2 ts)
      ∈ (s.accumulateAllocation spec tokensByCard unitsPerToken).rows := by
    rw [rows_accumulateAllocation]
    exact mem_filterMap.mpr ⟨card, hcard, by
      rw [ResourceServer.cardRow, if_pos hman, hts, Option.map_some]⟩
  rw [DevicesStatus.rows, hnil] at hrow
  cases hrow

theorem groups_plannedStatus_ne_nil {snap : Snapshot} {chosen : ChosenCards} {logical : Placements} (hlists : s.Lists snap.devices.spec res)
    (htokens : (chosen.cards.tokens.lookup res).isSome) :
    (plannedStatus s snap chosen logical).groups ≠ [] := by
  have hcharged : (s.accumulateAllocation snap.devices.spec chosen.cards.tokens
      chosen.unitsPerToken).groups ≠ [] := groups_accumulateAllocation_ne_nil hlists htokens
  unfold plannedStatus
  dsimp only
  split
  · simpa [applyLogicalPlacements] using hcharged
  · simpa [applyLogicalPlacements, applyPhysicalPlacements] using hcharged

theorem lookup_groupTokens_isSome {tokens : List ResourceToken} {t : ResourceToken}
    (ht : t ∈ tokens) : ((ResourceServer.groupTokens tokens).lookup t.resource).isSome := by
  have hadd : ∀ (m : TokensByCard) (t' : ResourceToken),
      t.resource = t'.resource ∨ (m.lookup t.resource).isSome →
      ((ResourceServer.addToken m t').lookup t.resource).isSome := fun m t' h => by
    rw [ResourceServer.addToken]
    by_cases heq : t.resource = t'.resource
    · rw [heq, AList.lookup_insert]
      rfl
    · rw [AList.lookup_insert_ne heq]
      exact h.resolve_left heq
  exact Scan.foldl_of_mem (P := fun m : TokensByCard => (m.lookup t.resource).isSome) ht
    (fun m => hadd m t (.inl rfl)) (fun m t' _ hm => hadd m t' (.inr hm)) ∅

theorem lookup_addToken_isSome {cards : PartitionCards} {here : Resource}
    (h : here = res ∨ (cards.tokens.lookup here).isSome) :
    ((cards.addToken res).lookup here).isSome := by
  rw [PartitionCards.addToken]
  by_cases heq : here = res
  · rw [heq, AList.lookup_insert]
    rfl
  · rw [AList.lookup_insert_ne heq]
    exact h.resolve_left heq

/-- A replayed partition has a token on every card of the allocation already held. -/
theorem lookup_priorPartitionTokens_isSome {prior : DevicesStatus} {row : Entry}
    (h : row ∈ prior.rows) : ((priorPartitionTokens prior).tokens.lookup row.1).isSome :=
  Scan.foldl_of_mem (P := fun cards : PartitionCards => (cards.tokens.lookup row.1).isSome) h
    (fun _ => lookup_addToken_isSome (.inl rfl)) (fun _ _ _ hc => lookup_addToken_isSome (.inr hc)) _

/-- A chosen partition has a token on every card that is selected. -/
theorem lookup_partitionTokens_isSome {byID : AList fun _ : String => Resource}
    {selections : List PartitionSelection} {sel : PartitionSelection} (h : sel ∈ selections) (hres : byID.lookup sel.id = some res) :
    ((partitionTokens selections byID).tokens.lookup res).isSome :=
  Scan.foldl_of_mem (P := fun cards : PartitionCards => (cards.tokens.lookup res).isSome) h
    (fun _ => lookup_addToken_isSome (.inl (by rw [hres, Option.getD_some])))
    (fun _ _ _ hc => lookup_addToken_isSome (.inr hc)) _

/-- The ID of a candidate names a card of some candidate. -/
theorem exists_lookup_candidateByID {candidates : List (Resource × PartitionCandidate)}
    {c : Resource × PartitionCandidate} (h : c ∈ candidates) :
    ∃ c' ∈ candidates, (candidateByID candidates).lookup c.2.id = some c'.1 := by
  refine Scan.foldl_of_mem (P := fun m : AList fun _ : String => Resource =>
    ∃ c' ∈ candidates, m.lookup c.2.id = some c'.1) h
      (fun m => ⟨c, h, AList.lookup_insert m⟩) (fun m x hx hm => ?_) ∅
  by_cases hid : c.2.id = x.2.id
  · exact ⟨x, hx, by rw [hid, AList.lookup_insert]⟩
  · rwa [AList.lookup_insert_ne hid]

/-- A candidate is a card of the server's manufacturer that the inventory lists. -/
theorem lists_of_mem_partitionCandidates {r : DevicesReconciler} {devs : Devices}
    {occupied : Placements} {profile : String} {c : Resource × PartitionCandidate}
    (h : c ∈ partitionCandidates s r devs occupied profile) : s.Lists devs.spec c.1 := by
  obtain ⟨card, hcard, hc⟩ := mem_filterMap.mp h
  have hman : card.2.1.manufacturer = s.manufacturer := by
    by_contra hne
    simp [partitionCandidate, hne] at hc
  split at hc
  · obtain rfl := Option.some.inj hc
    exact ⟨card, hcard, rfl, hman⟩
  · cases hc

/-- **The call names a card**: an offered one that the inventory lists or, for a partition, whose
cards the server picks itself, the cards a candidate already holds are not all gone. -/
structure NamesCard (sw : Switches) (s : ResourceServer) (r : DevicesReconciler) (snap : Snapshot)
    (kubelet : Option (Pod → Container → Bool)) (tokens : List ResourceToken) : Prop where
  offered : s.allocationMode ≠ .partitioned → ∃ t ∈ tokens, s.Lists snap.devices.spec t.resource
  asked : tokens ≠ []
  held : s.allocationMode = .partitioned →
    ∀ c ∈ allocatingCandidates (s.allocationMatch sw r snap tokens kubelet) snap.pods,
      ∀ prior, priorAllocationOf r c.1 c.2.name = some prior →
        ∃ row ∈ prior.rows, s.Lists snap.devices.spec row.1

section Decision

variable {sw : Switches} {r : DevicesReconciler} {snap : Snapshot} {placer : Option LogicalPlacer}
  {kubelet : Option (Pod → Container → Bool)} {tokens : List ResourceToken}
  {deviceIDs : List String} {d : AllocationDecision} {reserved : DevicesReconciler}

theorem decideAllocation_resolved
    (h : decideAllocation sw s r snap placer kubelet tokens deviceIDs = .ok (d, reserved)) :
    Resolved r (s.allocationMatch sw r snap tokens kubelet) snap.pods (d.pod, d.container) := by
  unfold decideAllocation at h
  obtain ⟨_, -, h⟩ := Scan.bind_eq_ok.mp h
  obtain ⟨⟨pod, ctr⟩, hpod, h⟩ := Scan.bind_eq_ok.mp h
  dsimp only at h
  obtain ⟨_, -, h⟩ := Scan.bind_eq_ok.mp h
  obtain ⟨_, -, h⟩ := Scan.bind_eq_ok.mp h
  obtain ⟨_, -, h⟩ := Scan.bind_eq_ok.mp h
  obtain ⟨_, -, h⟩ := Scan.bind_eq_ok.mp h
  obtain ⟨rfl, -⟩ := Prod.mk.inj (Except.ok.inj h)
  exact getAllocatingPod_resolved hpod

/-- The cards of a partition decision that names one have one the inventory lists. -/
theorem lists_of_choosePartitionCards {pod : Pod} {container profile : String} {instances : ℕ}
    {occupied : Placements} {cards : PartitionCards} (hpos : instances ≠ 0)
    (hheld : ∀ prior, priorAllocationOf r pod container = some prior →
      ∃ row ∈ prior.rows, s.Lists snap.devices.spec row.1)
    (h : choosePartitionCards s r snap.devices pod container occupied profile instances
      = some cards) :
    ∃ res, s.Lists snap.devices.spec res ∧ (cards.tokens.lookup res).isSome := by
  unfold choosePartitionCards at h
  split at h
  · rename_i prior hprior
    obtain rfl := Option.some.inj h
    obtain ⟨row, hrow, hlists⟩ := hheld prior hprior
    exact ⟨row.1, hlists, lookup_priorPartitionTokens_isSome hrow⟩
  · obtain ⟨sels, hsels, rfl⟩ := Option.map_eq_some_iff.mp h
    obtain ⟨chosen, rfl, hlen, -, hsound⟩ := selectPartitionPlacements_spec hsels
    obtain ⟨b, hb⟩ : ∃ b, b ∈ chosen :=
      exists_mem_of_ne_nil _ fun hnil => hpos (by simpa [hnil] using hlen.symm)
    obtain ⟨c, hc, hceq⟩ := mem_map.mp (mem_of_getElem? (hsound b hb).1)
    obtain ⟨c', hc', hlookup⟩ := exists_lookup_candidateByID hc
    refine ⟨c'.1, lists_of_mem_partitionCandidates hc', ?_⟩
    exact lookup_partitionTokens_isSome (mem_map_of_mem hb) (by rw [← hceq]; exact hlookup)

/-- **A call that names a card is decided on an allocation that does.** -/
theorem groups_ne_nil_of_namesCard (hnames : NamesCard sw s r snap kubelet tokens)
    (h : decideAllocation sw s r snap placer kubelet tokens deviceIDs = .ok (d, reserved)) :
    d.status.groups ≠ [] := by
  obtain ⟨chosen, logical, hd, -⟩ := decideAllocation_spec sw s r snap h
  have hmem := (decideAllocation_resolved h).mem
  obtain ⟨res, hlists, htokens⟩ : ∃ res, s.Lists snap.devices.spec res ∧
      (chosen.cards.tokens.lookup res).isSome := by
    have hchosen := hd.chooseCards_eq
    unfold chooseCards at hchosen
    dsimp only at hchosen
    split at hchosen
    · rename_i hmode
      obtain rfl := Except.ok.inj hchosen
      obtain ⟨t, ht, hlists⟩ := hnames.offered hmode
      exact ⟨t.resource, hlists, lookup_groupTokens_isSome ht⟩
    · rename_i hmode
      split at hchosen
      · cases hchosen
      · split at hchosen
        · cases hchosen
        · rename_i cards hcards
          obtain rfl := Except.ok.inj hchosen
          exact lists_of_choosePartitionCards (by simpa using hnames.asked)
            (hnames.held (not_not.mp hmode) _ hmem) hcards
  rw [hd.status_eq]
  exact groups_plannedStatus_ne_nil hlists htokens

end Decision

/-! ## The run -/

/-- One Allocate of the server: what the informer has, what kubelet answers when it is asked, and what
it offers. -/
structure Call where
  devices : Devices
  cache : PodCache
  placer : Option LogicalPlacer := none
  kubelet : Option (List PodResources) := none
  tokens : List ResourceToken
  deviceIDs : List String

namespace Call

variable (c : Call) (sw : Switches) (s : ResourceServer) (r : DevicesReconciler)

def snap : Snapshot := ⟨c.devices, c.cache.pods⟩

/-- The containers kubelet reports as waiting. -/
def waits : Option (Pod → Container → Bool) :=
  c.kubelet.map fun listed => (kubeletPendingFrom listed s.resourceName).waitsForDevice

/-- What the call is matched against the pending containers with. -/
def matching : AllocationMatch := s.allocationMatch sw r c.snap c.tokens (c.waits s)

/-- The serialized part of the call. -/
def decision : Except AllocateError (AllocationDecision × DevicesReconciler) :=
  decideAllocation sw s r c.snap c.placer (c.waits s) c.tokens c.deviceIDs

/-- Some candidate that may be waiting holds no reservation. -/
def Unserved : Prop :=
  ∃ p ∈ allocatingCandidates (c.matching sw s r) c.cache.pods,
    (c.matching sw s r).waiting p = true ∧ r.reserved p = false

end Call

/-- A call that was decided: the tables before it, the decision, and the tables it left. -/
structure Served where
  call : Call
  before : DevicesReconciler
  decision : AllocationDecision
  after : DevicesReconciler

/-- The container a call was resolved to. -/
def Served.container (x : Served) : Pod × Container := (x.decision.pod, x.decision.container)

/-- **A run of Allocates of one server** that offer one quantity, newest first, and the tables it
leads to.  Decisions are serialized; a call completes after its decision, when it likes.  A refused
call changes nothing. -/
inductive Batch (sw : Switches) (s : ResourceServer) (quantity : ℕ) :
    List Served → DevicesReconciler → Prop
  | start (r : DevicesReconciler) : Batch sw s quantity [] r
  | decide {served : List Served} {r reserved : DevicesReconciler} {d : AllocationDecision}
      (h : Batch sw s quantity served r) (call : Call) (hquantity : call.tokens.length = quantity)
      (hdecide : call.decision sw s r = .ok (d, reserved)) :
      Batch sw s quantity (⟨call, r, d, reserved⟩ :: served) reserved
  | complete {served : List Served} {r : DevicesReconciler} (h : Batch sw s quantity served r)
      {x : Served} (hx : x ∈ served) (v : Responder) (w : Writes) {resp : ContainerAllocateResponse}
      (hok : (completeAllocation s v w x.decision r x.call.deviceIDs).answer = .ok resp) :
      Batch sw s quantity served
        (completeAllocation s v w x.decision r x.call.deviceIDs).reconciler

/-- The second tables reserve whatever the first do. -/
def KeepsReserved (r r' : DevicesReconciler) : Prop :=
  ∀ p, r.reserved p = true → r'.reserved p = true

theorem keepsReserved_reserveDevices (r : DevicesReconciler) (podUID container : String)
    (allocated : DevicesStatus) (deviceIDs : List String) :
    KeepsReserved r (r.reserveDevices podUID container allocated deviceIDs) := by
  intro p hp
  unfold DevicesReconciler.reserveDevices
  split
  · exact hp
  · split
    · exact hp
    · unfold DevicesReconciler.reserved DevicesReconciler.reservedDevices
      by_cases hkey : (⟨p.1.uid, p.2.name⟩ : ReservationKey) = ⟨podUID, container⟩
      · rw [hkey, AList.lookup_insert]
        rfl
      · rw [AList.lookup_insert_ne hkey]
        exact hp

theorem KeepsReserved.trans {r₁ r₂ r₃ : DevicesReconciler} (h : KeepsReserved r₁ r₂)
    (h' : KeepsReserved r₂ r₃) : KeepsReserved r₁ r₃ := fun p hp => h' p (h p hp)

section Completion

variable {v : Responder} {w : Writes} {d d' : AllocationDecision} {r r' : DevicesReconciler}
  {deviceIDs : List String} {resp : ContainerAllocateResponse}

theorem keepsReserved_actuatePartition {physical : Option PhysicalSlicedAllocation}
    (h : d.actuatePartition v r deviceIDs = .ok (d', physical, r')) : KeepsReserved r r' := by
  unfold AllocationDecision.actuatePartition at h
  split at h
  · obtain ⟨-, hrest⟩ := Prod.mk.inj (Except.ok.inj h)
    obtain ⟨-, rfl⟩ := Prod.mk.inj hrest
    exact fun _ => id
  · split at h
    · cases h
    · split at h
      · cases h
      · obtain ⟨-, hrest⟩ := Prod.mk.inj (Except.ok.inj h)
        obtain ⟨-, rfl⟩ := Prod.mk.inj hrest
        exact keepsReserved_reserveDevices _ _ _ _ _

/-- A patch that lands and is answered writes the decision's record, and settles the give-back still
pending for the container. -/
theorem persistAllocation_ok {rendered : Option ContainerAllocateResponse}
    (h : (d.persistAllocation v w r deviceIDs rendered).answer = .ok resp) :
    ∃ patched,
      patchedAnnotation r d.pod d.container.name ⟨d.status, deviceIDs⟩ = some patched ∧
      d.persistAllocation v w r deviceIDs rendered
        = ⟨.ok resp, r.dropPendingRelease d.pod.uid d.container.name, [patched]⟩ := by
  unfold AllocationDecision.persistAllocation patchAllocatingPod at *
  cases hann : patchedAnnotation r d.pod d.container.name ⟨d.status, deviceIDs⟩ with
  | none => simp [hann, AllocationDecision.fail] at h
  | some patched =>
    simp only [hann] at h ⊢
    cases hlands : w.patchLands with
    | false => simp [hlands, AllocationDecision.fail] at h
    | true =>
      simp only [hlands, if_true] at h ⊢
      cases hresp : rendered.or (v.containerResponse d) with
      | none => simp [hresp] at h
      | some answer =>
        simp only [hresp] at h ⊢
        obtain rfl := Except.ok.inj h
        exact ⟨patched, rfl, rfl⟩

theorem keepsReserved_persistAllocation {rendered : Option ContainerAllocateResponse}
    (h : (d.persistAllocation v w r deviceIDs rendered).answer = .ok resp) :
    KeepsReserved r (d.persistAllocation v w r deviceIDs rendered).reconciler := by
  obtain ⟨patched, -, hout⟩ := persistAllocation_ok h
  rw [hout]
  exact fun _ => id

/-- A call that succeeds takes no reservation back. -/
theorem keepsReserved_completeAllocation
    (h : (completeAllocation s v w d r deviceIDs).answer = .ok resp) :
    KeepsReserved r (completeAllocation s v w d r deviceIDs).reconciler := by
  unfold completeAllocation at *
  cases hact : d.actuatePartition v r deviceIDs with
  | error e => simp [hact, AllocationDecision.fail] at h
  | ok out =>
    obtain ⟨d', physical, r'⟩ := out
    simp only [hact] at h ⊢
    cases hrender : d'.renderPrePatchResponse v s physical with
    | error e => simp [hrender, AllocationDecision.fail] at h
    | ok rendered =>
      simp only [hrender] at h ⊢
      exact (keepsReserved_actuatePartition hact).trans (keepsReserved_persistAllocation h)

end Completion

section Run

variable {sw : Switches} {quantity : ℕ} {served : List Served} {r : DevicesReconciler}

/-- Every decided call names a card. -/
def AllNameCard (sw : Switches) (s : ResourceServer) (served : List Served) : Prop :=
  ∀ x ∈ served, NamesCard sw s x.before x.call.snap (x.call.waits s) x.call.tokens

/-- What a call of a run did. -/
theorem Batch.served_spec (h : Batch sw s quantity served r) {x : Served} (hx : x ∈ served) :
    x.call.decision sw s x.before = .ok (x.decision, x.after) := by
  induction h with
  | start => exact nomatch hx
  | decide h call hquantity hdecide ih =>
    obtain rfl | hx := mem_cons.mp hx
    · exact hdecide
    · exact ih hx
  | complete h hx' v w hok ih => exact ih hx

/-- The container a call that names a card was resolved to holds a reservation after it. -/
theorem reserved_after {call : Call} {before after : DevicesReconciler} {d : AllocationDecision}
    (hnames : NamesCard sw s before call.snap (call.waits s) call.tokens)
    (h : call.decision sw s before = .ok (d, after)) :
    after.reserved (d.pod, d.container) = true := by
  obtain ⟨_, _, hd, rfl⟩ := decideAllocation_spec sw s before call.snap h
  have hgroups := groups_ne_nil_of_namesCard hnames h
  have huid := call.cache.uid_ne d.pod hd.pod_mem
  have hname := call.cache.name_ne d.pod hd.pod_mem d.container hd.container_mem
  rw [DevicesReconciler.reserved, DevicesReconciler.reservedDevices,
    DevicesReconciler.reservations_reserveDevices huid hname hgroups, AList.lookup_insert]
  rfl

/-- Nothing that was served loses its reservation. -/
theorem Batch.reserved_of_mem (h : Batch sw s quantity served r) (hnames : AllNameCard sw s served)
    {x : Served} (hx : x ∈ served) : r.reserved x.container = true := by
  induction h with
  | start => exact nomatch hx
  | @decide served r reserved d h call hquantity hdecide ih =>
    obtain ⟨hnow, hbefore⟩ := forall_mem_cons.mp hnames
    obtain rfl | hmem := mem_cons.mp hx
    · exact reserved_after hnow hdecide
    · obtain ⟨_, _, -, rfl⟩ := decideAllocation_spec sw s r call.snap hdecide
      exact keepsReserved_reserveDevices _ _ _ _ _ _ (ih hbefore hmem)
  | complete h hx' v w hok ih => exact keepsReserved_completeAllocation hok _ (ih hnames hx)

/-- As long as a candidate is unserved, a call is resolved to one without a reservation. -/
theorem unreserved_before {call : Call} {before after : DevicesReconciler} {d : AllocationDecision}
    (h : call.decision sw s before = .ok (d, after)) (hun : call.Unserved sw s before) :
    before.reserved (d.pod, d.container) = false := by
  obtain ⟨p, hp, hwait, hunres⟩ := hun
  by_contra hres
  have hall := (decideAllocation_resolved h).unreserved_first (by simpa using hres) p hp hwait
  rw [hunres] at hall
  cases hall

/-- **A batch of Allocates that name cards is resolved to distinct containers**: while a candidate is
unserved, each call reserves for a container without a reservation, and so for none served before; and
none for a container kubelet reports as served. -/
theorem batch_resolves_to_distinct_containers (h : Batch sw s quantity served r)
    (hnames : AllNameCard sw s served) :
    (∀ x ∈ served, x.call.Unserved sw s x.before →
      x.before.reserved x.container = false ∧ x.after.reserved x.container = true) ∧
    (∀ x ∈ served, ∀ listed, x.call.kubelet = some listed →
      (kubeletPendingFrom listed s.resourceName).reported x.decision.pod x.decision.container
        ≠ some true) ∧
    served.Pairwise fun later earlier => later.call.Unserved sw s later.before →
      (later.container.1.uid, later.container.2.name)
        ≠ (earlier.container.1.uid, earlier.container.2.name) := by
  refine ⟨fun x hx hun => ?_, fun x hx listed hlisted => ?_, ?_⟩
  · exact ⟨unreserved_before (h.served_spec hx) hun,
      reserved_after (hnames x hx) (h.served_spec hx)⟩
  · have hwait := (decideAllocation_resolved (h.served_spec hx)).waiting
    rw [AllocationMatch.waiting, ResourceServer.allocationMatch, Call.waits, hlisted] at hwait
    exact KubeletPending.reported_of_waits _ hwait
  · induction h with
    | start => exact .nil
    | @decide served r reserved d h call hquantity hdecide ih =>
      obtain ⟨-, hbefore⟩ := forall_mem_cons.mp hnames
      refine pairwise_cons.mpr ⟨fun x hx hun hkey => ?_, ih hbefore⟩
      -- the earlier call's reservation stands when the later one is resolved
      have hres := h.reserved_of_mem hbefore hx
      have hunres := unreserved_before hdecide hun
      obtain ⟨huid, hname⟩ := Prod.mk.inj hkey
      simp only [Served.container, DevicesReconciler.reserved] at huid hname hres hunres
      rw [huid, hname, hres] at hunres
      cases hunres
    | complete h hx' v w hok ih => exact ih hnames

end Run

/-! ### Two identical Pods -/

/-- A server of whole cards whose responder answers a grant without cards too. -/
def metaxCards : ResourceServer := ⟨"metax", "metax-tech.com/gpu", .exclusive⟩

def metaxContainer : Container where
  name := "c"
  limits := AList.singleton (.exclusive "metax-tech.com/gpu") 1

/-- A Pod that asks for one of its cards. -/
def wantsMetaxCard (uid : String) : Pod := { uid, containers := [metaxContainer] }

def twinPods : PodCache where
  pods := [wantsMetaxCard "a", wantsMetaxCard "b"]
  nodup_uid := by decide
  uid_ne := by decide
  name_ne := by decide

/-- A node with two cards. -/
def twoCardNode : Devices :=
  ⟨[{ id := "g", manufacturer := "metax", accelerators := [{ id := "x" }, { id := "y" }] }], {}⟩

/-- A call for one of the Pods that offers a card. -/
def offers (device : String) : Call where
  devices := twoCardNode
  cache := twinPods
  tokens := [⟨⟨"g", device⟩, 0⟩]
  deviceIDs := ["g:" ++ device ++ ":0000"]

theorem offers_namesCard (r : DevicesReconciler) {device : String}
    (h : metaxCards.Lists twoCardNode.spec ⟨"g", device⟩) :
    NamesCard {} metaxCards r (offers device).snap ((offers device).waits metaxCards)
      (offers device).tokens where
  offered _ := ⟨_, mem_singleton_self _, h⟩
  asked := cons_ne_nil _ _
  held hmode := absurd hmode (by decide)

/-- The second Pod is unserved as long as it holds no reservation. -/
theorem offers_unserved {r : DevicesReconciler} {device : String}
    (h : r.reservedDevices "b" "c" = none) : (offers device).Unserved {} metaxCards r := by
  refine ⟨(wantsMetaxCard "b", metaxContainer),
    mem_allocatingCandidates.mpr ⟨.tail _ (.head _), .inr rfl, .head _, rfl⟩, rfl, ?_⟩
  simp [DevicesReconciler.reserved, wantsMetaxCard, metaxContainer, h]

theorem twins_resolve_to_distinct_containers :
    ∃ x y r, Batch {} metaxCards 1 [y, x] r ∧ AllNameCard {} metaxCards [y, x] ∧
      y.call.Unserved {} metaxCards y.before ∧
      (y.container.1.uid, y.container.2.name) ≠ (x.container.1.uid, x.container.2.name) := by
  have hcalls : ∃ d r, (offers "x").decision {} metaxCards {} = .ok (d, r) ∧
      r.reservedDevices "b" "c" = none ∧
      ∃ d' r', (offers "y").decision {} metaxCards r = .ok (d', r') :=
    ⟨_, _, rfl, rfl, _, _, rfl⟩
  obtain ⟨d, r, hx, hfree, d', r', hy⟩ := hcalls
  have hrun : Batch {} metaxCards 1 [⟨offers "y", r, d', r'⟩, ⟨offers "x", {}, d, r⟩] r' :=
    .decide (.decide (.start {}) _ rfl hx) _ rfl hy
  have hnames : AllNameCard {} metaxCards [⟨offers "y", r, d', r'⟩, ⟨offers "x", {}, d, r⟩] :=
    forall_mem_cons.mpr ⟨offers_namesCard r (by decide),
      forall_mem_singleton.mpr (offers_namesCard {} (by decide))⟩
  have hdistinct := (batch_resolves_to_distinct_containers hrun hnames).2.2
  have hun : (offers "y").Unserved {} metaxCards r := offers_unserved hfree
  exact ⟨_, _, _, hrun, hnames, hun, rel_of_pairwise_cons hdistinct (.head _) hun⟩

/-- **A batch whose card has left the inventory is resolved to one container over and over**: the call
succeeds and reserves nothing, so the next one is resolved to the same Pod while the other waits. -/
theorem batch_of_gone_card_repeats_container :
    ¬ ∀ (sw : Switches) (s : ResourceServer) (quantity : ℕ) (served : List Served)
        (r : DevicesReconciler), Batch sw s quantity served r →
        ∀ x ∈ served, x.call.Unserved sw s x.before →
          (∃ v w resp, (completeAllocation s v w x.decision x.after x.call.deviceIDs).answer
            = .ok resp) →
          x.before.reserved x.container = false ∧ x.after.reserved x.container = true := by
  intro h
  have hcall : ∃ d r, (offers "gone").decision {} metaxCards {} = .ok (d, r) ∧
      (∃ v w resp, (completeAllocation metaxCards v w d r ["g:gone:0000"]).answer = .ok resp) ∧
      r.reserved (d.pod, d.container) = false :=
    ⟨_, _, rfl, ⟨answering, ⟨true, true⟩, _, rfl⟩, rfl⟩
  obtain ⟨d, r, hdecide, hok, hres⟩ := hcall
  have hreserved := (h {} metaxCards 1 _ _ (.decide (.start {}) (offers "gone") rfl hdecide) _
    (.head _) (offers_unserved rfl) hok).2
  rw [Served.container, hres] at hreserved
  cases hreserved

end GpuStack
