import GpuStack.DevicePlugin.Batch
import GpuStack.Lib.Assoc

/-!
# DevicePlugin/KubeletAllocations — the record against what kubelet reports

kubelet says under which device IDs it holds accelerators for a container.  For a whole card the IDs
determine the claim, so the claim is computed again, against the inventory of the moment, and compared
with the one on the Pod; a difference stops the ledger and every Allocate of the node.

Both computations walk the inventory, and the comparison is structural.  So a record is accepted as
long as the cards it names stand in the order they had when it was written
(`kubelet_accepts_record_iff`), and an inventory that lists the same cards in another order makes every
claim of two of them a conflict.
-/

namespace GpuStack

open List

/-! ## Device IDs -/

/-- Why a device ID names no token. -/
inductive TokenError
  | format (id : String)
  | emptyName (id : String)
  | index (index : String)
deriving DecidableEq, Repr

/-- A decimal of at most 64 bits. -/
def parseUint (digits : List Char) : Option ℕ :=
  if digits = [] ∨ ¬ digits.all Char.isDigit then none else
    let n := digits.foldl (fun n c => 10 * n + (c.toNat - '0'.toNat)) 0
    if n < 2 ^ 64 then some n else none

/-- `<group>:<device>:<index>`. -/
def parseResourceToken (id : String) : Except TokenError ResourceToken :=
  match id.toList.splitOn ':' with
  | [group, device, index] =>
    if group = [] ∨ device = [] then .error (.emptyName id) else
      match parseUint index with
      | none => .error (.index (String.ofList index))
      | some n => .ok ⟨⟨String.ofList group, String.ofList device⟩, n⟩
  | _ => .error (.format id)

/-- The cards device IDs name. -/
def namedCards (deviceIDs : List String) : List Resource :=
  deviceIDs.filterMap fun id => (parseResourceToken id).toOption.map (·.resource)

/-! ## The check -/

/-- What makes a container's record contradict kubelet. -/
inductive KubeletConflict
  | uncachedPod (reported : NamespacedName)
  | parseDeviceID (pod : NamespacedName) (e : TokenError)
  | absentFromInventory (pod : NamespacedName)
  | readAllocation (pod : NamespacedName)
  | identity (pod : NamespacedName) (container : String) (deviceIDs : List String)
deriving DecidableEq, Repr

/-- **One container against kubelet**: whole-card tokens determine the complete claim. -/
def verifyKubeletContainer (devs : Devices) (pods : List Pod) (reported : NamespacedName)
    (container : String) (deviceIDs : List String) (manufacturer : String)
    (mode : DeviceAllocationMode) : Except KubeletConflict Unit :=
  match pods.find? fun p => p.key = reported with
  | none => .error (.uncachedPod reported)
  | some pod =>
    if pod.phase = .succeeded ∨ pod.phase = .failed then .ok () else
      match deviceIDs.mapM parseResourceToken with
      | .error e => .error (.parseDeviceID pod.key e)
      | .ok tokens =>
        let tokensByCard := ResourceServer.groupTokens tokens
        let expected :=
          ResourceServer.accumulateAllocation ⟨manufacturer, "", mode⟩ devs.spec tokensByCard 0
        if (ResourceServer.allocationUnits expected).keys.length ≠ tokensByCard.keys.length then
          .error (.absentFromInventory pod.key)
        else
          match allocatedAcceleratorsOf pod with
          | none => .error (.readAllocation pod.key)
          | some allocations =>
            let claim := (allocations.lookup container).getD ⟨{}, []⟩
            if claim.deviceIDs.toFinset = deviceIDs.toFinset ∧ claim.devices = expected then .ok ()
            else .error (.identity pod.key container deviceIDs)

/-- The record Allocate writes on a container for the device IDs it is handed. -/
inductive RecordedBy (s : ResourceServer) (spec : List DevicesGroup) (container : String)
    (deviceIDs : List String) (record : ContainerAllocation) : Prop
  | of_allocate {sw : Switches} {r r' : DevicesReconciler} {snap : Snapshot}
      {placer : Option LogicalPlacer} {kubelet : Option (Pod → Container → Bool)}
      {tokens : List ResourceToken} {d : AllocationDecision} {reserved : DevicesReconciler}
      {v : Responder} {w : Writes} {resp : ContainerAllocateResponse}
      {allocations : PodAllocations} {nulls : List String}
      (hspec : snap.devices.spec = spec) (hname : d.container.name = container)
      (hparse : deviceIDs.mapM parseResourceToken = .ok tokens)
      (hdecide : decideAllocation sw s r snap placer kubelet tokens deviceIDs = .ok (d, reserved))
      (hok : (completeAllocation s v w d r' deviceIDs).answer = .ok resp)
      (hwrite : .recorded allocations nulls ∈ (completeAllocation s v w d r' deviceIDs).writes)
      (hrecord : allocations.lookup container = some record)

/-! ## Inventories that list the same claim -/

/-- One change of an inventory that leaves the cards a server holds as they are: groups in another
order, the accelerators of a group in another order, one more group, one more accelerator that is not
among the cards. -/
inductive ReshapeStep (s : ResourceServer) (cards : List Resource) :
    List DevicesGroup → List DevicesGroup → Prop
  | groups {spec spec' : List DevicesGroup} (h : spec.Perm spec') : ReshapeStep s cards spec spec'
  | accelerators (pre post : List DevicesGroup) (g : DevicesGroup) {accs : List Accelerator}
      (h : g.accelerators.Perm accs) :
      ReshapeStep s cards (pre ++ g :: post) (pre ++ { g with accelerators := accs } :: post)
  | addGroup (pre post : List DevicesGroup) (g : DevicesGroup) (h : g.accelerators = []) :
      ReshapeStep s cards (pre ++ post) (pre ++ g :: post)
  | addCard (pre post : List DevicesGroup) (g : DevicesGroup) (acc : Accelerator)
      (left right : List Accelerator) (h : g.accelerators = left ++ right)
      (hother : g.manufacturer = s.manufacturer → ⟨g.id, acc.id⟩ ∉ cards) :
      ReshapeStep s cards (pre ++ g :: post)
        (pre ++ { g with accelerators := left ++ acc :: right } :: post)

/-- An inventory made from another by such changes and their inverses. -/
def Reshaped (s : ResourceServer) (cards : List Resource) :
    List DevicesGroup → List DevicesGroup → Prop := Relation.EqvGen (ReshapeStep s cards)

/-- The cards of a server, each with its index, in the order the inventory lists them. -/
def ResourceServer.orderOf (s : ResourceServer) (spec : List DevicesGroup) (cards : List Resource) :
    List (Resource × ℕ) :=
  (specCards spec).filterMap fun card =>
    if card.2.1.manufacturer = s.manufacturer ∧ card.1 ∈ cards then some (card.1, card.2.2.index)
    else none

variable {s : ResourceServer} {spec spec' : List DevicesGroup} {cards : List Resource}

variable {res : Resource} {deviceIDs : List String}

theorem mem_orderOf :
    (∃ index, (res, index) ∈ s.orderOf spec cards) ↔ s.Lists spec res ∧ res ∈ cards := by
  simp only [ResourceServer.orderOf, mem_filterMap, Option.ite_none_right_eq_some,
    Option.some.injEq, Prod.mk.injEq]
  constructor
  · rintro ⟨index, card, hcard, ⟨hman, hmem⟩, rfl, rfl⟩
    exact ⟨⟨card, hcard, rfl, hman⟩, hmem⟩
  · rintro ⟨⟨card, hcard, rfl, hman⟩, hmem⟩
    exact ⟨card.2.2.index, card, hcard, ⟨hman, hmem⟩, rfl, rfl⟩

theorem orderOf_append (pre post : List DevicesGroup) :
    s.orderOf (pre ++ post) cards = s.orderOf pre cards ++ s.orderOf post cards := by
  simp [ResourceServer.orderOf, specCards, filterMap_append]

theorem orderOf_cons (g : DevicesGroup) (gs : List DevicesGroup) :
    s.orderOf (g :: gs) cards = (g.accelerators.filterMap fun a =>
      if g.manufacturer = s.manufacturer ∧ ⟨g.id, a.id⟩ ∈ cards then some (⟨g.id, a.id⟩, a.index)
      else none) ++ s.orderOf gs cards := by
  simp [ResourceServer.orderOf, specCards, filterMap_append]

/-- **A reshaped inventory lists the same cards**, in some order. -/
theorem Reshaped.perm_orderOf (h : Reshaped s cards spec spec') :
    (s.orderOf spec' cards).Perm (s.orderOf spec cards) := by
  induction h with
  | refl => exact .refl _
  | symm _ _ _ ih => exact ih.symm
  | trans _ _ _ _ _ ih ih' => exact ih'.trans ih
  | rel _ _ h =>
    cases h with
    | groups h => exact (h.symm.flatMap_right _).filterMap _
    | accelerators pre post g h =>
      rw [orderOf_append, orderOf_append, orderOf_cons, orderOf_cons]
      exact .append_left _ (.append_right _ (h.symm.filterMap _))
    | addGroup pre post g h =>
      rw [orderOf_append, orderOf_append, orderOf_cons, h]
      exact .refl _
    | addCard pre post g acc left right h hother =>
      have hskip : ¬ (g.manufacturer = s.manufacturer ∧ (⟨g.id, acc.id⟩ : Resource) ∈ cards) :=
        fun hheld => hother hheld.1 hheld.2
      rw [orderOf_append, orderOf_append, orderOf_cons, orderOf_cons, h, filterMap_append,
        filterMap_append, filterMap_cons, if_neg hskip]

/-! ## The claim of whole cards -/

/-- The row charged for a whole card, held alone or shared. -/
def ResourceServer.wholeCardRow (s : ResourceServer) (card : Resource × ℕ) : Entry :=
  (card.1, { id := card.1.device, index := card.2, mode := s.allocationMode,
             allocated := s.allocatedUnits 0 0 })

theorem wholeCardRow_injective : Function.Injective s.wholeCardRow := by
  rintro ⟨res, index⟩ ⟨res', index'⟩ h
  simp only [ResourceServer.wholeCardRow, Prod.mk.injEq, AcceleratorAllocation.mk.injEq] at h
  rw [h.1, h.2.2.1]

/-- What a whole card is charged depends on neither the tokens on it nor their units. -/
theorem allocatedUnits_of_wholeCard (h : s.allocationMode = .exclusive ∨ s.allocationMode = .shared)
    (unitsPerToken : ℤ) (tokens : ℕ) :
    s.allocatedUnits unitsPerToken tokens = s.allocatedUnits 0 0 := by
  obtain h | h := h <;> simp only [ResourceServer.allocatedUnits, h]

theorem mem_allocationUnits {status : DevicesStatus} :
    res ∈ ResourceServer.allocationUnits status ↔ ∃ row ∈ status.rows, row.1 = res :=
  (Assoc.mem_foldl_insert _ _ _ _ _).trans (or_iff_left (AList.notMem_empty _))

/-- The rows of the claim are the named cards in inventory order. -/
theorem rows_accumulateAllocation_wholeCard
    (h : s.allocationMode = .exclusive ∨ s.allocationMode = .shared) (spec : List DevicesGroup)
    (tokens : List ResourceToken) (unitsPerToken : ℤ) :
    (s.accumulateAllocation spec (ResourceServer.groupTokens tokens) unitsPerToken).rows
      = (s.orderOf spec (tokens.map (·.resource))).map s.wholeCardRow := by
  rw [rows_accumulateAllocation, ResourceServer.orderOf, map_filterMap]
  refine filterMap_congr fun card hcard => ?_
  have hid : card.1.device = card.2.2.id := by rw [fst_of_mem_specCards hcard]
  have hnamed : card.1 ∈ tokens.map (·.resource)
      ↔ ((ResourceServer.groupTokens tokens).lookup card.1).isSome := by
    rw [AList.lookup_isSome, mem_groupTokens, mem_map]
  simp only [ResourceServer.cardRow, hnamed]
  by_cases hman : card.2.1.manufacturer = s.manufacturer
  · cases (ResourceServer.groupTokens tokens).lookup card.1 with
    | none => simp
    | some ts => simp [hman, hid, ResourceServer.wholeCardRow, ResourceServer.chargedEntry,
        allocatedUnits_of_wholeCard h unitsPerToken]
  · simp [hman]

/-- The groups of an allocation are known by its rows. -/
theorem groups_accumulateAllocation (spec : List DevicesGroup) (tokensByCard : TokensByCard)
    (unitsPerToken : ℤ) :
    (s.accumulateAllocation spec tokensByCard unitsPerToken).groups
      = (s.accumulateAllocation spec tokensByCard unitsPerToken).rows.foldl
        (fun gs row => ResourceServer.appendAccelerator row.1.group s.manufacturer row.2 gs) [] := by
  rw [rows_accumulateAllocation, foldl_filterMap]
  refine foldl_ext _ _ _ fun gs card hcard => ?_
  unfold ResourceServer.chargeCard ResourceServer.cardRow
  by_cases hman : card.2.1.manufacturer = s.manufacturer
  · cases hlookup : tokensByCard.lookup card.1 with
    | none => simp
    | some ts => simp [hman, fst_of_mem_specCards hcard]
  · simp [hman]

/-- **Two whole-card claims of the same cards are equal exactly when the inventories list the cards in
the same order.** -/
theorem accumulateAllocation_wholeCard_eq_iff
    (h : s.allocationMode = .exclusive ∨ s.allocationMode = .shared)
    {tokens tokens' : List ResourceToken} {units units' : ℤ} :
    s.accumulateAllocation spec (ResourceServer.groupTokens tokens) units
        = s.accumulateAllocation spec' (ResourceServer.groupTokens tokens') units'
      ↔ s.orderOf spec (tokens.map (·.resource)) = s.orderOf spec' (tokens'.map (·.resource)) := by
  have hrows := rows_accumulateAllocation_wholeCard h spec tokens units
  have hrows' := rows_accumulateAllocation_wholeCard h spec' tokens' units'
  constructor
  · intro heq
    rw [heq, hrows'] at hrows
    exact (map_injective_iff.mpr wholeCardRow_injective hrows).symm
  · intro horder
    rw [← horder, ← hrows] at hrows'
    have hgroups : (s.accumulateAllocation spec (ResourceServer.groupTokens tokens) units).groups
        = (s.accumulateAllocation spec' (ResourceServer.groupTokens tokens') units').groups := by
      rw [groups_accumulateAllocation, groups_accumulateAllocation, hrows']
    exact congrArg DevicesStatus.mk hgroups

/-- A claim has a row for every named card exactly when the inventory lists them all. -/
theorem length_allocationUnits_eq_iff
    (h : s.allocationMode = .exclusive ∨ s.allocationMode = .shared) (tokens : List ResourceToken)
    (units : ℤ) :
    (ResourceServer.allocationUnits (s.accumulateAllocation spec
        (ResourceServer.groupTokens tokens) units)).keys.length
        = (ResourceServer.groupTokens tokens).keys.length
      ↔ ∀ t ∈ tokens, s.Lists spec t.resource := by
  have hkeys : ∀ res, res ∈ (ResourceServer.allocationUnits (s.accumulateAllocation spec
      (ResourceServer.groupTokens tokens) units)).keys ↔
      s.Lists spec res ∧ res ∈ (ResourceServer.groupTokens tokens).keys := by
    intro res
    rw [← AList.mem_keys, ← AList.mem_keys, mem_allocationUnits, mem_groupTokens,
      rows_accumulateAllocation_wholeCard h]
    have hmem : (∃ index, (res, index) ∈ s.orderOf spec (tokens.map (·.resource))) ↔ _ := mem_orderOf
    simpa [ResourceServer.wholeCardRow] using hmem
  constructor
  · intro hlen t ht
    have hperm := (subperm_of_subset (AList.keys_nodup _) fun res hres =>
      ((hkeys res).mp hres).2).perm_of_length_le hlen.ge
    exact ((hkeys _).mp (hperm.mem_iff.mpr
      (AList.mem_keys.mp (mem_groupTokens.mpr ⟨t, ht, rfl⟩)))).1
  · intro hlists
    refine ((perm_ext_iff_of_nodup (AList.keys_nodup _) (AList.keys_nodup _)).mpr
      fun res => (hkeys res).trans (and_iff_right_of_imp fun hres => ?_)).length_eq
    obtain ⟨t, ht, rfl⟩ := mem_groupTokens.mp (AList.mem_keys.mpr hres)
    exact hlists t ht

/-! ## The record -/

theorem applyLogicalPlacements_empty (status : DevicesStatus) :
    applyLogicalPlacements status ∅ = status := by
  simp [applyLogicalPlacements, DevicesStatus.mapRows]

section Record

variable {sw : Switches} {r r' : DevicesReconciler} {snap : Snapshot}
  {placer : Option LogicalPlacer} {kubelet : Option (Pod → Container → Bool)}
  {tokens : List ResourceToken} {deviceIDs : List String} {d : AllocationDecision}
  {reserved : DevicesReconciler} {v : Responder} {w : Writes} {resp : ContainerAllocateResponse}

/-- A decision for whole cards is the claim of the tokens' cards, and names no profile. -/
theorem decideAllocation_wholeCard
    (hmode : s.allocationMode = .exclusive ∨ s.allocationMode = .shared)
    (h : decideAllocation sw s r snap placer kubelet tokens deviceIDs = .ok (d, reserved)) :
    d.profile = "" ∧ ∃ units, d.status
      = s.accumulateAllocation snap.devices.spec (ResourceServer.groupTokens tokens) units := by
  have hnp : s.allocationMode ≠ .partitioned := by obtain h | h := hmode <;> simp [h]
  have hns : s.allocationMode ≠ .sliced := by obtain h | h := hmode <;> simp [h]
  unfold decideAllocation at h
  obtain ⟨_, -, h⟩ := Scan.bind_eq_ok.mp h
  obtain ⟨⟨pod, ctr⟩, -, h⟩ := Scan.bind_eq_ok.mp h
  dsimp only at h
  obtain ⟨_, -, h⟩ := Scan.bind_eq_ok.mp h
  obtain ⟨chosen, hchosen, h⟩ := Scan.bind_eq_ok.mp h
  obtain ⟨_, -, h⟩ := Scan.bind_eq_ok.mp h
  obtain ⟨logical, hlogical, h⟩ := Scan.bind_eq_ok.mp h
  obtain ⟨rfl, -⟩ := Prod.mk.inj (Except.ok.inj h)
  obtain rfl : logical = ∅ := by
    unfold placeLogicalSlice at hlogical
    split at hlogical
    · exact (Except.ok.inj hlogical).symm
    · rw [if_pos hns] at hlogical
      exact (Except.ok.inj hlogical).symm
  simp only [chooseCards, if_pos hnp] at hchosen
  obtain rfl := Except.ok.inj hchosen
  exact ⟨rfl, (s.requestedUnits ctr).1, applyLogicalPlacements_empty _⟩

/-- A call that succeeds without building a partition records its decision. -/
theorem lookup_of_completeAllocation {allocations : PodAllocations} {nulls : List String}
    (hprofile : d.profile = "") (hok : (completeAllocation s v w d r deviceIDs).answer = .ok resp)
    (hwrite : .recorded allocations nulls ∈ (completeAllocation s v w d r deviceIDs).writes) :
    allocations.lookup d.container.name = some ⟨d.status, deviceIDs⟩ := by
  have hact : d.actuatePartition v r deviceIDs = .ok (d, none, r) := by
    rw [AllocationDecision.actuatePartition, if_pos hprofile]
  simp only [completeAllocation, hact] at hok hwrite
  cases hrender : d.renderPrePatchResponse v s none with
  | error e => simp [hrender, AllocationDecision.fail] at hok
  | ok rendered =>
    simp only [hrender] at hok hwrite
    obtain ⟨patched, hann, hout⟩ := persistAllocation_ok hok
    simp only [hout, mem_singleton] at hwrite
    obtain ⟨records, -, hrecords⟩ := Option.map_eq_some_iff.mp hann
    rw [← hwrite] at hrecords
    obtain ⟨rfl, -⟩ := AllocationAnnotation.recorded.inj hrecords
    exact AList.lookup_insert _

end Record

/-- **The record of whole cards** is the claim of the named cards, under their IDs. -/
theorem RecordedBy.eq_claim {container : String}
    {record : ContainerAllocation}
    (hmode : s.allocationMode = .exclusive ∨ s.allocationMode = .shared)
    (h : RecordedBy s spec container deviceIDs record) :
    record.deviceIDs = deviceIDs ∧ ∃ tokens units, deviceIDs.mapM parseResourceToken = .ok tokens ∧
      record.devices = s.accumulateAllocation spec (ResourceServer.groupTokens tokens) units := by
  obtain ⟨rfl, rfl, hparse, hdecide, hok, hwrite, hrecord⟩ := h
  obtain ⟨hprofile, units, hstatus⟩ := decideAllocation_wholeCard hmode hdecide
  rw [lookup_of_completeAllocation hprofile hok hwrite, hstatus] at hrecord
  obtain rfl := Option.some.inj hrecord
  exact ⟨rfl, _, units, hparse, rfl⟩

/-! ## Acceptance -/

theorem orderOf_congr {cards' : List Resource} (h : ∀ res, res ∈ cards ↔ res ∈ cards') :
    s.orderOf spec cards = s.orderOf spec cards' := by
  simp only [ResourceServer.orderOf, h]

theorem mem_namedCards :
    res ∈ namedCards deviceIDs
      ↔ ∃ id ∈ deviceIDs, ∃ t, parseResourceToken id = .ok t ∧ t.resource = res := by
  simp only [namedCards, mem_filterMap, Option.map_eq_some_iff, Scan.toOption_eq_some]

/-- The cards of parsed device IDs are the ones they name. -/
theorem mem_namedCards_of_mapM {tokens : List ResourceToken}
    (h : deviceIDs.mapM parseResourceToken = .ok tokens) :
    res ∈ namedCards deviceIDs ↔ res ∈ tokens.map (·.resource) := by
  simp only [mem_namedCards, mem_map, Scan.mem_of_mapM_eq_ok h]
  grind

section Verify

variable {status : DevicesStatus} {pods : List Pod} {key : NamespacedName} {pod : Pod}
  {container : String} {reported deviceIDs : List String} {allocations : PodAllocations}

/-- What the check asks of a Pod it finds. -/
theorem verifyKubeletContainer_eq_ok {tokens : List ResourceToken}
    (hpod : pods.find? (fun p => p.key = key) = some pod)
    (hann : allocatedAcceleratorsOf pod = some allocations)
    (hparse : reported.mapM parseResourceToken = .ok tokens) :
    verifyKubeletContainer ⟨spec, status⟩ pods key container reported s.manufacturer
        s.allocationMode = .ok () ↔
      (pod.phase = .succeeded ∨ pod.phase = .failed) ∨
        (ResourceServer.allocationUnits (s.accumulateAllocation spec
          (ResourceServer.groupTokens tokens) 0)).keys.length
          = (ResourceServer.groupTokens tokens).keys.length ∧
        ((allocations.lookup container).getD ⟨{}, []⟩).deviceIDs.toFinset = reported.toFinset ∧
        ((allocations.lookup container).getD ⟨{}, []⟩).devices
          = s.accumulateAllocation spec (ResourceServer.groupTokens tokens) 0 := by
  have hserver : ResourceServer.accumulateAllocation ⟨s.manufacturer, "", s.allocationMode⟩ spec
      (ResourceServer.groupTokens tokens) 0
      = s.accumulateAllocation spec (ResourceServer.groupTokens tokens) 0 := rfl
  simp only [verifyKubeletContainer, hpod, hann, hparse, hserver]
  split_ifs <;> simp_all

/-- **kubelet's report is accepted exactly in the order the record was written in.**  A reshaped
inventory lists the same cards; the Pod's record is accepted against it when they stand in the order
they had for the Allocate, and none of them was already gone then. -/
theorem kubelet_accepts_record_iff {record : ContainerAllocation}
    (hmode : s.allocationMode = .exclusive ∨ s.allocationMode = .shared)
    (hrecord : RecordedBy s spec container deviceIDs record)
    (hreshaped : Reshaped s (namedCards deviceIDs) spec spec')
    (hpod : pods.find? (fun p => p.key = key) = some pod)
    (hann : allocatedAcceleratorsOf pod = some allocations)
    (hcarries : allocations.lookup container = some record)
    (hreported : ∀ id, id ∈ reported ↔ id ∈ deviceIDs) :
    (s.orderOf spec' (namedCards deviceIDs)).Perm (s.orderOf spec (namedCards deviceIDs)) ∧
    (verifyKubeletContainer ⟨spec', status⟩ pods key container reported s.manufacturer
        s.allocationMode = .ok () ↔
      (pod.phase = .succeeded ∨ pod.phase = .failed) ∨
        (∀ res ∈ namedCards deviceIDs, s.Lists spec res) ∧
        s.orderOf spec' (namedCards deviceIDs) = s.orderOf spec (namedCards deviceIDs)) := by
  have hperm := hreshaped.perm_orderOf
  refine ⟨hperm, ?_⟩
  obtain ⟨hids, tokens, units, hparse, hdevices⟩ := hrecord.eq_claim hmode
  obtain ⟨tokens', hparse'⟩ : ∃ ts, reported.mapM parseResourceToken = .ok ts :=
    Scan.exists_mapM_eq_ok.mpr fun id hid =>
      Scan.exists_mapM_eq_ok.mp ⟨tokens, hparse⟩ id ((hreported id).mp hid)
  -- the tokens of the record and those of the report name the same cards
  have hcards : ∀ res, res ∈ tokens.map (·.resource) ↔ res ∈ namedCards deviceIDs := fun res =>
    (mem_namedCards_of_mapM hparse).symm
  have hcards' : ∀ res, res ∈ tokens'.map (·.resource) ↔ res ∈ namedCards deviceIDs := fun res => by
    rw [← mem_namedCards_of_mapM hparse', mem_namedCards, mem_namedCards]
    simp only [hreported]
  have hlists : (∀ t ∈ tokens', s.Lists spec' t.resource)
      ↔ ∀ res ∈ namedCards deviceIDs, s.Lists spec res := by
    rw [← forall_mem_map (P := s.Lists spec')]
    refine forall_congr' fun res => ?_
    rw [hcards']
    refine forall_congr' fun hres => ?_
    have hmem : (∃ i, (res, i) ∈ s.orderOf spec' (namedCards deviceIDs))
        ↔ ∃ i, (res, i) ∈ s.orderOf spec (namedCards deviceIDs) := by simp only [hperm.mem_iff]
    simpa [mem_orderOf, hres] using hmem
  have hset : deviceIDs.toFinset = reported.toFinset :=
    Finset.ext fun id => by simp [hreported]
  rw [verifyKubeletContainer_eq_ok hpod hann hparse', hcarries, Option.getD_some, hids, hdevices,
    length_allocationUnits_eq_iff hmode, accumulateAllocation_wholeCard_eq_iff hmode, hlists,
    orderOf_congr hcards, orderOf_congr hcards', eq_comm (a := s.orderOf spec _)]
  simp [hset]

end Verify

/-! ### A claim of two cards -/

def pairIDs : List String := ["g:x:0000", "g:y:0000"]

/-- A Pod that asks for two whole cards. -/
def pairPod (recorded : AllocationAnnotation) : Pod where
  uid := "a"
  annotation := recorded
  containers :=
    [{ name := "c", limits := AList.singleton (.exclusive "metax-tech.com/gpu") 2 }]

/-- What Allocate records for it. -/
def pairRecord : ContainerAllocation where
  devices := ⟨[⟨"g", "metax", [{ id := "x", mode := .exclusive, allocated := resourceMaxUnits },
    { id := "y", mode := .exclusive, allocated := resourceMaxUnits }]⟩]⟩
  deviceIDs := pairIDs

/-- The Pod with the record on it. -/
def pairHolder : Pod := pairPod (.recorded (AList.singleton "c" pairRecord))

theorem recordedBy_pair : RecordedBy metaxCards twoCardNode.spec "c" pairIDs pairRecord := by
  have hcall : ∃ tokens d r, pairIDs.mapM parseResourceToken = .ok tokens ∧
      decideAllocation {} metaxCards {} ⟨twoCardNode, [pairPod .absent]⟩ none none tokens pairIDs
        = .ok (d, r) ∧ d.container.name = "c" ∧
      (completeAllocation metaxCards answering ⟨true, true⟩ d r pairIDs).answer = .ok {} ∧
      (completeAllocation metaxCards answering ⟨true, true⟩ d r pairIDs).writes
        = [ pairHolder.annotation] :=
    ⟨[⟨⟨"g", "x"⟩, 0⟩, ⟨⟨"g", "y"⟩, 0⟩], _, _, by decide +kernel, rfl, rfl, rfl, rfl⟩
  obtain ⟨tokens, d, r, hparse, hdecide, hname, hok, hwrites⟩ := hcall
  exact .of_allocate rfl hname hparse hdecide hok (hwrites ▸ mem_singleton_self _) rfl

/-- The node with one more card in front. -/
def threeCardSpec : List DevicesGroup :=
  [{ id := "g", manufacturer := "metax",
     accelerators := [{ id := "z" }, { id := "x" }, { id := "y" }] }]

theorem kubelet_accepts_pair_beside_new_card :
    Reshaped metaxCards (namedCards pairIDs) twoCardNode.spec threeCardSpec ∧
    verifyKubeletContainer ⟨threeCardSpec, {}⟩ [pairHolder] {} "c" pairIDs "metax" .exclusive
      = .ok () := by
  have hreshaped : Reshaped metaxCards (namedCards pairIDs) twoCardNode.spec threeCardSpec :=
    .rel _ _ (.addCard [] [] _ { id := "z" } [] _ rfl fun _ => by decide +kernel)
  refine ⟨hreshaped, ?_⟩
  exact (kubelet_accepts_record_iff (.inl rfl) recordedBy_pair hreshaped rfl rfl rfl
    fun _ => .rfl).2.mpr (.inr ⟨by decide +kernel, by decide +kernel⟩)

/-- **An inventory that lists the same cards the other way round is refused.** -/
theorem kubelet_refuses_pair_in_other_order :
    ¬ ∀ (s : ResourceServer) (spec spec' : List DevicesGroup) (container : String)
        (deviceIDs : List String) (record : ContainerAllocation) (status : DevicesStatus)
        (pods : List Pod) (key : NamespacedName) (pod : Pod) (allocations : PodAllocations),
        (s.allocationMode = .exclusive ∨ s.allocationMode = .shared) →
        RecordedBy s spec container deviceIDs record →
        Reshaped s (namedCards deviceIDs) spec spec' →
        pods.find? (fun p => p.key = key) = some pod →
        allocatedAcceleratorsOf pod = some allocations →
        allocations.lookup container = some record →
        verifyKubeletContainer ⟨spec', status⟩ pods key container deviceIDs s.manufacturer
          s.allocationMode = .ok () := by
  intro h
  have hreshaped : Reshaped metaxCards (namedCards pairIDs) twoCardNode.spec
      [{ id := "g", manufacturer := "metax", accelerators := [{ id := "y" }, { id := "x" }] }] :=
    .rel _ _ (.accelerators [] [] _ (.swap _ _ _))
  have hok := h metaxCards _ _ "c" pairIDs pairRecord {} [pairHolder] {} pairHolder _ (.inl rfl)
    recordedBy_pair hreshaped rfl rfl rfl
  exact absurd hok (by decide +kernel)

end GpuStack
