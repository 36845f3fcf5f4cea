import GpuStack.DevicePlugin.Claims
import GpuStack.DevicePlugin.LedgerOrder
import GpuStack.Lib.Scan

/-!
# DevicePlugin/Strict — the rebuild that must not answer by halves

`buildDesiredStatusStrict` validates the inventory and every record first, then runs the ordinary
fold and stops at its first failure.  What it returns is the ordinary ledger, of an input without
surprises: every held accelerator is one card of the inventory, in the mode the ledger shows.

A record may head two groups with one ID.  The check for a card named twice looks at one group at a
time, so it does not see the second naming, and the ledger charges the card twice.
-/

namespace GpuStack

open List

/-! ## The inventory -/

/-- What is wrong with an inventory. -/
inductive InventoryError
  | groupWithoutID (position : ℕ)
  | groupTwice (group : String)
  | cardWithoutID (position : ℕ) (group : String)
  | cardTwice (card group : String)
  | indexTwice (index : ℕ) (group : String)
deriving DecidableEq, Repr

/-- One card, after those of its group before it. -/
def inventoryCardError (group : String) (passed : List Accelerator) (card : Accelerator) :
    Option InventoryError :=
  if card.id = "" then some (.cardWithoutID passed.length group)
  else if card.id ∈ passed.map (·.id) then some (.cardTwice card.id group)
  -- an index is local to a vendor, so it is compared inside the group only
  else if card.index ∈ passed.map (·.index) then some (.indexTwice card.index group)
  else none

/-- One group, after those before it. -/
def inventoryGroupError (passed : List DevicesGroup) (group : DevicesGroup) :
    Option InventoryError :=
  if group.id = "" then some (.groupWithoutID passed.length)
  else if group.id ∈ passed.map (·.id) then some (.groupTwice group.id)
  else Scan.firstError (inventoryCardError group.id) group.accelerators

/-- An inventory whose own identities contradict is refused. -/
def validateDeviceInventory (spec : List DevicesGroup) : Option InventoryError :=
  Scan.firstError inventoryGroupError spec

/-! ## One record -/

/-- What is wrong with the accelerators recorded for a container. -/
inductive ClaimError
  | unknownGroup (group : String)
  | manufacturer (group claimed declared : String)
  | unknownCard (card group : String)
  | cardTwice (card group : String)
  | index (card group : String) (recorded declared : ℕ)
  | mode (card : String) (mode : DeviceAllocationMode)
  | negativeUnits (card : String) (allocated remaining : ℤ)
  | tooManyUnits (card : String) (allocated limit : ℤ)
  | tooManySharedUnits (card : String) (allocated limit : ℤ)
  | noProfile (card : String)
  | noPlacements (card profile : String)
deriving DecidableEq, Repr

/-- The modes that reach a record. -/
def recordedModes : List DeviceAllocationMode := [.exclusive, .shared, .sliced, .partitioned]

/-- A mode no allocator writes, or units a record cannot say. -/
def validateCardModeAndUnits (card : AcceleratorAllocation) : Option ClaimError :=
  if card.mode ∉ recordedModes then some (.mode card.id card.mode)
  else if card.allocated < 0 ∨ card.remaining < 0 then
    some (.negativeUnits card.id card.allocated card.remaining)
  else if resourceMaxUnits < card.allocated then
    some (.tooManyUnits card.id card.allocated resourceMaxUnits)
  else if card.mode = .shared ∧ resourceMaxUnits / sharedResourceMaxSize < card.allocated then
    some (.tooManySharedUnits card.id card.allocated (resourceMaxUnits / sharedResourceMaxSize))
  else none

/-- A physical record is a profile together with its placements; half of one is refused. -/
def validateCardPlacement (card : AcceleratorAllocation) : Option ClaimError :=
  if card.allocatedPhysicalProfile = "" ∧ card.allocatedPhysicalPlacements = [] then none
  else if card.allocatedPhysicalProfile = "" then some (.noProfile card.id)
  else if card.allocatedPhysicalPlacements = [] then
    some (.noPlacements card.id card.allocatedPhysicalProfile)
  else none

def findDeviceGroup (spec : List DevicesGroup) (id : String) : Option DevicesGroup :=
  spec.find? fun g => g.id = id

def findDeviceCard (group : DevicesGroup) (id : String) : Option Accelerator :=
  group.accelerators.find? fun a => a.id = id

/-- One recorded accelerator, after those of its group before it. -/
def recordedCardError (spec : DevicesGroup) (group : String) (passed : List AcceleratorAllocation)
    (card : AcceleratorAllocation) : Option ClaimError :=
  match findDeviceCard spec card.id with
  | none => some (.unknownCard card.id group)
  | some cardSpec =>
    if card.id ∈ passed.map (·.id) then some (.cardTwice card.id group)
    else if card.index ≠ cardSpec.index then
      some (.index card.id group card.index cardSpec.index)
    else (validateCardModeAndUnits card).or (validateCardPlacement card)

/-- One recorded group.  The cards passed are those of this group alone. -/
def recordedGroupError (spec : List DevicesGroup) (group : DevicesAllocationGroup) :
    Option ClaimError :=
  match findDeviceGroup spec group.id with
  | none => some (.unknownGroup group.id)
  | some groupSpec =>
    if group.manufacturer ≠ groupSpec.manufacturer then
      some (.manufacturer group.id group.manufacturer groupSpec.manufacturer)
    else Scan.firstError (recordedCardError groupSpec group.id) group.accelerators

/-- The accelerators recorded for one container, against the inventory. -/
def validateRecordedClaims (spec : List DevicesGroup) (status : DevicesStatus) :
    Option ClaimError :=
  status.groups.findSome? (recordedGroupError spec)

/-- What is wrong with the record of a Pod. -/
inductive RecordError
  | null
  | unreadable
  | notOnNode
  | nullContainer (container : String)
  | undeclaredContainer (container : String)
  | claim (container : String) (error : ClaimError)
deriving DecidableEq, Repr

/-- The first container, by name, whose recorded value is an explicit null; `""` for none. -/
def nullContainersIn (nulls : List String) : String :=
  ((nulls.insertionSort (· ≤ ·)).head?).getD ""

def podDeclaresContainer (pod : Pod) (container : String) : Bool :=
  (pod.containers ++ pod.initContainers).any fun c => c.name = container

/-- The record of one container of a Pod. -/
def containerRecordError (spec : List DevicesGroup) (pod : Pod) (container : String)
    (record : ContainerAllocation) : Option RecordError :=
  if !podDeclaresContainer pod container then some (.undeclaredContainer container)
  else (validateRecordedClaims spec record.devices).map (.claim container)

/-- The record of one Pod.  A Pod without a record has not been allocated yet. -/
def validatePodAllocationRecord (spec : List DevicesGroup) (pod : Pod) : Option RecordError :=
  match pod.annotation with
  | .absent => none
  | .null => some .null
  | .unreadable => some .unreadable
  | .recorded allocations nulls =>
    if pod.nodeName = "" then some .notOnNode
    else if nullContainersIn nulls ≠ "" then some (.nullContainer (nullContainersIn nulls))
    else allocations.entries.findSome? fun e => containerRecordError spec pod e.1 e.2

/-! ## The rebuild -/

/-- What stops the strict rebuild. -/
inductive StrictError
  | inventory (error : InventoryError)
  | record (pod : Pod) (error : RecordError)
  | fold (pod : Pod) (failure : FoldFailure)
deriving DecidableEq

/-- One Pod of the fold.  A failure drops the Pod's claim or ends the fold. -/
def foldStep (keepFolding : FoldFailure → Bool) (released : Bool) (st : FoldState) (pod : Pod) :
    Except (Pod × FoldFailure) FoldState :=
  match foldPod released st pod with
  | (st, none) => .ok st
  | (st, some failure) => if keepFolding failure then .ok st else .error (pod, failure)

/-- **The fold both rebuilds run**; `keepFolding` is all they differ in.  `foldPods` is the fold that
absorbs every failure. -/
def foldPodAllocations (keepFolding : FoldFailure → Bool) (released : Bool) (pods : List Pod)
    (st : FoldState) : Except (Pod × FoldFailure) FoldState :=
  pods.foldlM (foldStep keepFolding released) st

/-- The strict rebuild stops at every failure. -/
def stopAtFoldFailure (_ : FoldFailure) : Bool := false

/-- **The rebuild for a caller that must not be told half an answer.** -/
def buildDesiredStatusStrict (released : Bool) (spec : List DevicesGroup) (pods : List Pod) :
    Except StrictError (DevicesStatus × List String) :=
  match validateDeviceInventory spec with
  | some e => .error (.inventory e)
  | none =>
    match pods.findSome? fun pod => (validatePodAllocationRecord spec pod).map (.record pod) with
    | some e => .error e
    | none =>
      match foldPodAllocations stopAtFoldFailure released pods ⟨initDesiredStatus spec, ∅, ∅⟩ with
      | .error (pod, failure) => .error (.fold pod failure)
      | .ok st => .ok (foldPhysicalLedger spec st.status st.maps, pods.map (·.uid))

variable {released : Bool} {spec : List DevicesGroup}

/-- A Pod the strict fold passes is readable and in no conflict with the Pods before it. -/
theorem foldStep_strict {pod : Pod} {st st' : FoldState}
    (h : foldStep stopAtFoldFailure released st pod = .ok st') :
    ∃ held, heldStatusOf released pod = some held ∧
      (mergeEntries held.rows st.status).2 = none ∧ st' = (foldPod released st pod).1 ∧
      st'.status = (mergeEntries held.rows st.status).1 := by
  cases hheld : heldStatusOf released pod with
  | none => simp [foldStep, foldPod, hheld, stopAtFoldFailure] at h
  | some held =>
    rcases hm : mergeEntries held.rows st.status with ⟨status, _ | conflict⟩
    · have hpod : foldPod released st pod
          = (⟨status, accumulatePhysicalOccupied held st.maps⟩, none) := by
        simp only [foldPod, hheld, applyAllocatedStatus, hm]
      rw [foldStep, hpod] at h
      obtain rfl := Except.ok.inj h
      exact ⟨held, rfl, by rw [hm], by rw [hpod], by rw [hm]⟩
    · simp [foldStep, foldPod, hheld, applyAllocatedStatus, hm, stopAtFoldFailure] at h

/-- A fold that stopped nowhere read every record, met no conflict and did what the ordinary fold
does. -/
theorem foldPodAllocations_strict {pods : List Pod} {st st' : FoldState}
    (h : foldPodAllocations stopAtFoldFailure released pods st = .ok st') :
    (∀ pod ∈ pods, ∃ held, heldStatusOf released pod = some held) ∧
      (mergeEntries (heldEntries released pods) st.status).2 = none ∧
      st' = foldPods released pods st := by
  induction pods generalizing st with
  | nil =>
    obtain rfl := Except.ok.inj h
    exact ⟨fun _ hpod => absurd hpod not_mem_nil, rfl, rfl⟩
  | cons pod pods ih =>
    rw [foldPodAllocations, foldlM_cons] at h
    cases hstep : foldStep stopAtFoldFailure released st pod with
    | error e => simp [hstep, bind, Except.bind] at h
    | ok mid =>
      obtain ⟨held, hheld, hclean, hmid, hstatus⟩ := foldStep_strict hstep
      rw [hstep] at h
      obtain ⟨hread, hrest, hfold⟩ := ih h
      refine ⟨forall_mem_cons.mpr ⟨⟨held, hheld⟩, hread⟩, ?_, ?_⟩
      · rw [heldEntries_cons, hheld, Option.map_some, Option.getD_some, mergeEntries_append,
          if_pos hclean, ← hstatus, hrest]
      · rw [hfold, hmid]
        rfl

/-- **What the strict rebuild passes**: the inventory, every record, and the whole fold. -/
theorem buildDesiredStatusStrict_spec {pods : List Pod} {out : DevicesStatus × List String}
    (h : buildDesiredStatusStrict released spec pods = .ok out) :
    validateDeviceInventory spec = none ∧
      (∀ pod ∈ pods, validatePodAllocationRecord spec pod = none) ∧
      ∃ st, foldPodAllocations stopAtFoldFailure released pods ⟨initDesiredStatus spec, ∅, ∅⟩
          = .ok st ∧
        out = (foldPhysicalLedger spec st.status st.maps, pods.map (·.uid)) := by
  unfold buildDesiredStatusStrict at h
  split at h
  · cases h
  · rename_i hinv
    split at h
    · cases h
    · rename_i hrecords
      split at h
      · cases h
      · rename_i st hfold
        refine ⟨hinv, fun pod hpod => ?_, st, hfold, (Except.ok.inj h).symm⟩
        exact Option.map_eq_none_iff.mp (findSome?_eq_none_iff.mp hrecords pod hpod)

/-! ## What a validated input is -/

theorem inventoryCardError_eq_none {group : String} {passed : List Accelerator}
    {card : Accelerator} : inventoryCardError group passed card = none ↔
      card.id ≠ "" ∧ card.id ∉ passed.map (·.id) ∧ card.index ∉ passed.map (·.index) := by
  unfold inventoryCardError
  split_ifs <;> simp_all

theorem inventoryGroupError_eq_none {passed : List DevicesGroup} {group : DevicesGroup} :
    inventoryGroupError passed group = none ↔ group.id ≠ "" ∧ group.id ∉ passed.map (·.id) ∧
      Scan.firstError (inventoryCardError group.id) group.accelerators = none := by
  unfold inventoryGroupError
  split_ifs <;> simp_all

/-- A validated inventory names every card once. -/
theorem specResources_nodup_of_validated (h : validateDeviceInventory spec = none) :
    (specResources spec).Nodup := by
  have hgroups : (spec.map (·.id)).Nodup :=
    Scan.nodup_of_firstError h fun pre g hg b hb heq =>
      (inventoryGroupError_eq_none.mp hg).2.1 (heq ▸ mem_map_of_mem hb)
  have hcards : ∀ g ∈ spec, (g.accelerators.map (·.id)).Nodup := fun g hg => by
    obtain ⟨pre, hpre⟩ := Scan.exists_check_of_mem h hg
    exact Scan.nodup_of_firstError (inventoryGroupError_eq_none.mp hpre).2.2
      fun pre a ha b hb heq =>
        (inventoryCardError_eq_none.mp ha).2.1 (heq ▸ mem_map_of_mem hb)
  rw [specResources, specCards, map_flatMap]
  refine nodup_flatMap.mpr ⟨fun g hg => ?_, ?_⟩
  · rw [map_map]
    exact List.Nodup.of_map Resource.device (by simpa [Function.comp_def] using hcards g hg)
  · refine (pairwise_map.mp hgroups).imp fun {g g'} hne => ?_
    rw [Function.onFun, disjoint_left]
    simp only [map_map, mem_map, Function.comp_apply, not_exists, not_and]
    rintro res ⟨a, -, rfl⟩ a' - heq
    exact hne (congrArg Resource.group heq).symm

theorem mode_of_validated {card : AcceleratorAllocation}
    (h : validateCardModeAndUnits card = none) : card.mode ≠ .none := by
  unfold validateCardModeAndUnits at h
  split_ifs at h with hmode
  rintro hnone
  simp [hnone, recordedModes] at hmode

theorem recordedCardError_eq_none {spec : DevicesGroup} {group : String}
    {passed : List AcceleratorAllocation} {card : AcceleratorAllocation}
    (h : recordedCardError spec group passed card = none) :
    ∃ cardSpec ∈ spec.accelerators, cardSpec.id = card.id ∧ cardSpec.index = card.index ∧
      card.id ∉ passed.map (·.id) ∧ card.mode ≠ .none := by
  unfold recordedCardError at h
  split at h
  · cases h
  · rename_i cardSpec hfind
    split_ifs at h with hpassed hindex
    obtain ⟨hmode, -⟩ := Option.or_eq_none_iff.mp h
    exact ⟨cardSpec, mem_of_find?_eq_some hfind, by simpa using find?_some hfind,
      (not_not.mp hindex).symm, hpassed, mode_of_validated hmode⟩

/-- What a validated record says of one of its groups. -/
structure RecordedGroup (spec : List DevicesGroup) (group : DevicesAllocationGroup) : Prop where
  found : ∃ groupSpec, findDeviceGroup spec group.id = some groupSpec ∧
    groupSpec.manufacturer = group.manufacturer ∧
    ∀ a ∈ group.accelerators, ∃ cardSpec ∈ groupSpec.accelerators,
      cardSpec.id = a.id ∧ cardSpec.index = a.index
  mode : ∀ a ∈ group.accelerators, a.mode ≠ .none
  once : (group.accelerators.map (·.id)).Nodup

theorem RecordedGroup.of_validated {group : DevicesAllocationGroup}
    (h : recordedGroupError spec group = none) : RecordedGroup spec group := by
  unfold recordedGroupError at h
  split at h
  · cases h
  · rename_i groupSpec hfind
    split_ifs at h with hman
    refine ⟨⟨groupSpec, hfind, (not_not.mp hman).symm, fun a ha => ?_⟩, fun a ha => ?_, ?_⟩
    · obtain ⟨pre, hpre⟩ := Scan.exists_check_of_mem h ha
      obtain ⟨cardSpec, hc, hcid, hindex, -⟩ := recordedCardError_eq_none hpre
      exact ⟨cardSpec, hc, hcid, hindex⟩
    · obtain ⟨pre, hpre⟩ := Scan.exists_check_of_mem h ha
      obtain ⟨-, -, -, -, -, hmode⟩ := recordedCardError_eq_none hpre
      exact hmode
    · refine Scan.nodup_of_firstError h fun pre a ha b hb heq => ?_
      obtain ⟨-, -, -, -, hpassed, -⟩ := recordedCardError_eq_none ha
      exact hpassed (heq ▸ mem_map_of_mem hb)

theorem recordedGroup_of_recordOf {pod : Pod} (h : validatePodAllocationRecord spec pod = none)
    {container : String} {a : ContainerAllocation} (ha : recordOf pod container = some a)
    {g : DevicesAllocationGroup} (hg : g ∈ a.devices.groups) : RecordedGroup spec g := by
  unfold validatePodAllocationRecord at h
  unfold recordOf allocatedAcceleratorsOf at ha
  split at h
  · rename_i hrec
    simp [hrec] at ha
  · cases h
  · cases h
  · rename_i allocations nulls hrec
    split_ifs at h
    rw [hrec] at ha
    have hentry := findSome?_eq_none_iff.mp h _ (AList.mem_lookup_iff.mp ha)
    unfold containerRecordError at hentry
    split_ifs at hentry
    have hclaims := Option.map_eq_none_iff.mp hentry
    exact .of_validated (findSome?_eq_none_iff.mp hclaims g hg)

/-! ## What a strict answer says -/

/-- An accelerator of a record is exactly one card of the inventory, under the recorded index and
manufacturer. -/
def NamesOneCard (spec : List DevicesGroup) (g : DevicesAllocationGroup)
    (acc : AcceleratorAllocation) : Prop :=
  ∃ card, (specCards spec).filter (fun c => c.1 = ⟨g.id, acc.id⟩) = [card] ∧
    card.2.2.index = acc.index ∧ card.2.1.manufacturer = g.manufacturer

/-- **No holder is hidden**: the answer is the ordinary ledger, every accelerator a Pod still holds
is one card of the inventory and shows its mode, and no record names a card twice. -/
structure HidesNoHolder (released : Bool) (spec : List DevicesGroup) (pods : List Pod)
    (status : DevicesStatus) : Prop where
  same : status = (buildDesiredStatus released spec pods).1
  held : ∀ pod ∈ pods, ∃ held, heldStatusOf released pod = some held ∧
    ∀ g ∈ held.groups, ∀ acc ∈ g.accelerators,
      NamesOneCard spec g acc ∧ statusModeOf status ⟨g.id, acc.id⟩ = acc.mode
  once : ∀ pod ∈ pods, ∀ container a, recordOf pod container = some a →
    (a.devices.rows.map (·.1)).Nodup

/-- Groups of one ID have no card in common. -/
def GroupsApart (status : DevicesStatus) : Prop :=
  status.groups.Pairwise fun g h => g.id = h.id →
    ∀ a ∈ g.accelerators, ∀ b ∈ h.accelerators, a.id ≠ b.id

/-- Once no group names a card twice, only two groups of one ID can. -/
theorem nodup_rows_iff_groupsApart {status : DevicesStatus}
    (honce : ∀ g ∈ status.groups, (g.accelerators.map (·.id)).Nodup) :
    (status.rows.map (·.1)).Nodup ↔ GroupsApart status := by
  rw [DevicesStatus.rows, map_flatMap, nodup_flatMap, GroupsApart]
  refine (and_iff_right fun g hg => ?_).trans ⟨fun h => h.imp ?_, fun h => h.imp ?_⟩
  · rw [map_map]
    exact List.Nodup.of_map Resource.device (by simpa [Function.comp_def] using honce g hg)
  · intro g g' hdisj hid a ha b hb heq
    refine disjoint_left.mp hdisj
      (mem_map.mpr ⟨(⟨g.id, a.id⟩, a), mem_map_of_mem ha, rfl⟩) ?_
    exact mem_map.mpr ⟨(⟨g'.id, b.id⟩, b), mem_map_of_mem hb, by rw [hid, heq]⟩
  · intro g g' hapart
    refine disjoint_left.mpr ?_
    simp only [map_map, mem_map, Function.comp_apply, not_exists, not_and]
    rintro res ⟨a, ha, rfl⟩ b hb heq
    obtain ⟨hgroup, hdevice⟩ := Resource.mk.inj heq
    exact hapart hgroup.symm a ha b hb hdevice.symm

/-- Under distinct keys, an element of a list is the only one under its key. -/
theorem filter_key_eq_singleton {κ β : Type*} [DecidableEq κ] {l : List (κ × β)}
    (hd : (l.map (·.1)).Nodup) {x : κ × β} (hx : x ∈ l) :
    l.filter (fun y => y.1 = x.1) = [x] := by
  induction l with
  | nil => cases hx
  | cons y l ih =>
    obtain ⟨hy, hl⟩ := nodup_cons.mp hd
    obtain rfl | hx := mem_cons.mp hx
    · rw [filter_cons_of_pos (by simp), filter_eq_nil_iff.mpr fun z hz => ?_]
      simp only [decide_eq_true_eq]
      exact fun heq => hy (mem_map.mpr ⟨z, hz, heq⟩)
    · have hne : y.1 ≠ x.1 := fun heq => hy (mem_map.mpr ⟨x, hx, heq.symm⟩)
      rw [filter_cons_of_neg (by simpa using hne), ih hl hx]

/-- In a ledger without repeated identities the mode of an accelerator is that of its row. -/
theorem statusModeOf_eq_of_row {s : DevicesStatus}
    (hd : ((DevicesStatus.positions s.shape).map (·.1)).Nodup) {res : Resource}
    {dst : AcceleratorAllocation} (h : s.row res = some dst) : statusModeOf s res = dst.mode := by
  obtain ⟨a, ha⟩ := DevicesStatus.row_isSome_iff.mp (h ▸ rfl : (s.row res).isSome)
  unfold statusModeOf
  split
  · rename_i row hfind
    have hkey : row.1 = res := by simpa using find?_some hfind
    have hrow := DevicesStatus.row_of_mem_rows hd (mem_of_find?_eq_some hfind)
    rw [hkey, h] at hrow
    rw [Option.some.inj hrow]
  · rename_i hfind
    exact absurd (find?_eq_none.mp hfind _ ha) (by simp)

section Answer

variable {released : Bool} {spec : List DevicesGroup}

/-- What a Pod of a validated list still holds, read back to its record. -/
theorem namesOneCard_of_held (hinv : validateDeviceInventory spec = none) {pod : Pod}
    (hrec : validatePodAllocationRecord spec pod = none) {held : DevicesStatus}
    (hheld : heldStatusOf released pod = some held) {g : DevicesAllocationGroup}
    (hg : g ∈ held.groups) {acc : AcceleratorAllocation} (hacc : acc ∈ g.accelerators) :
    NamesOneCard spec g acc ∧ acc.mode ≠ .none := by
  obtain ⟨status, hstatus, rfl⟩ := Option.map_eq_some_iff.mp hheld
  obtain ⟨allocations, hal, rfl⟩ := Option.map_eq_some_iff.mp hstatus
  have hrecord : ∀ {name c}, allocations.lookup name = some c → recordOf pod name = some c :=
    fun hl => by rw [recordOf, hal, Option.bind_some, hl]
  obtain ⟨g₁, hg₁, hid₁, hman₁, hsub⟩ := exists_group_of_mem_heldAllocation hg
  -- the group is headed by one container's record, the accelerator may come from another's
  obtain ⟨name, c, hl, g₂, hg₂, hid₂, hman₂⟩ := exists_group_of_mem_aggregate hg₁
  have hrow : ((⟨g₁.id, acc.id⟩ : Resource), acc) ∈ allocations.aggregate.rows :=
    mem_flatMap.mpr ⟨g₁, hg₁, mem_map_of_mem (hsub hacc)⟩
  obtain ⟨name', c', hl', hrow'⟩ := mem_rows_aggregate.mp hrow
  obtain ⟨g₃, hg₃, hmem⟩ := mem_flatMap.mp hrow'
  obtain ⟨a, ha, heq⟩ := mem_map.mp hmem
  obtain ⟨hres, rfl⟩ := Prod.mk.inj heq
  have hid₃ : g₃.id = g₁.id := congrArg Resource.group hres
  obtain ⟨groupSpec, hfind, hman, -⟩ := (recordedGroup_of_recordOf hrec (hrecord hl) hg₂).found
  have hvalid := recordedGroup_of_recordOf hrec (hrecord hl') hg₃
  obtain ⟨groupSpec', hfind', -, hcards⟩ := hvalid.found
  obtain rfl : groupSpec = groupSpec' := by
    rw [hid₂] at hfind
    rw [hid₃] at hfind'
    exact Option.some.inj (hfind.symm.trans hfind')
  obtain ⟨cardSpec, hcard, hcid, hindex⟩ := hcards a ha
  have hgid : groupSpec.id = g.id := by
    have : groupSpec.id = g₂.id := by simpa using find?_some hfind
    rw [this, hid₂, hid₁]
  refine ⟨⟨((⟨groupSpec.id, cardSpec.id⟩ : Resource), groupSpec, cardSpec), ?_, hindex, ?_⟩,
    hvalid.mode a ha⟩
  · rw [← hgid, ← hcid]
    exact filter_key_eq_singleton (specResources_nodup_of_validated hinv)
      (mem_flatMap.mpr ⟨groupSpec, mem_of_find?_eq_some hfind,
        mem_map_of_mem hcard⟩)
  · rw [hman, hman₂, hman₁]

/-- The rebuilt ledger shows the recorded mode of everything that is held. -/
theorem statusModeOf_of_held (hdistinct : (specResources spec).Nodup) {pods : List Pod}
    (hclean : (mergeEntries (heldEntries released pods) (initDesiredStatus spec)).2 = none)
    {maps : Placements × ProfileCounts} {e : Entry} (he : e ∈ heldEntries released pods)
    (hin : e.1 ∈ specResources spec) (hmode : e.2.mode ≠ .none) :
    statusModeOf (foldPhysicalLedger spec
      (mergeEntries (heldEntries released pods) (initDesiredStatus spec)).1 maps) e.1
        = e.2.mode := by
  have hal : Aligned spec (mergeEntries (heldEntries released pods) (initDesiredStatus spec)).1 :=
    Aligned.of_reworked (reworked_mergeEntries _ _ (DevicesStatus.Reworked.refl _))
  have hnd : ((DevicesStatus.positions (foldPhysicalLedger spec
      (mergeEntries (heldEntries released pods) (initDesiredStatus spec)).1 maps).shape).map
        (·.1)).Nodup := by
    rw [hal.shape_foldPhysicalLedger, hal.map_fst_positions]
    exact hdistinct
  obtain ⟨dst, hdst⟩ := exists_seed_row hin
  have haccepts := (mergeEntries_no_conflict_iff _ _).mp hclean e.1 dst hdst
  obtain ⟨f, hf, hrow⟩ := row_foldPhysicalLedger spec maps e.1
  have hlast := hrow _ hal
  rw [row_mergeEntries_of_no_conflict hclean, hdst, Option.map_some, Option.map_some] at hlast
  rw [statusModeOf_eq_of_row hnd hlast, (hf _).1]
  exact haccepts.mode_of_mem hmode (mem_entriesAt.mpr he)

/-- **The strict rebuild hides no holder exactly when no record lists a card under two groups of one
ID.** -/
theorem strict_rebuild_hides_no_holder_iff {pods : List Pod} {status : DevicesStatus}
    {uids : List String}
    (h : buildDesiredStatusStrict released spec pods = .ok (status, uids)) :
    HidesNoHolder released spec pods status ↔
      ∀ pod ∈ pods, ∀ container a, recordOf pod container = some a → GroupsApart a.devices := by
  obtain ⟨hinv, hrecs, st, hfold, hout⟩ := buildDesiredStatusStrict_spec h
  obtain ⟨hread, hclean, hst⟩ := foldPodAllocations_strict hfold
  obtain ⟨rfl, -⟩ := Prod.mk.inj hout
  have honce : ∀ pod ∈ pods, ∀ container a, recordOf pod container = some a →
      ((a.devices.rows.map (·.1)).Nodup ↔ GroupsApart a.devices) := fun pod hpod container a ha =>
    nodup_rows_iff_groupsApart fun g hg => (recordedGroup_of_recordOf (hrecs pod hpod) ha hg).once
  refine ⟨fun hno pod hpod container a ha => (honce pod hpod container a ha).mp
    (hno.once pod hpod container a ha), fun hapart => ⟨?_, fun pod hpod => ?_,
      fun pod hpod container a ha => (honce pod hpod container a ha).mpr
        (hapart pod hpod container a ha)⟩⟩
  · rw [buildDesiredStatus, hst]
  · obtain ⟨held, hheld⟩ := hread pod hpod
    refine ⟨held, hheld, fun g hg acc hacc => ?_⟩
    obtain ⟨hone, hmode⟩ := namesOneCard_of_held hinv (hrecs pod hpod) hheld hg hacc
    refine ⟨hone, ?_⟩
    have hentry : ((⟨g.id, acc.id⟩ : Resource), acc) ∈ heldEntries released pods :=
      mem_flatMap.mpr ⟨pod, hpod, by
        rw [hheld]
        exact mem_flatMap.mpr ⟨g, hg, mem_map_of_mem hacc⟩⟩
    obtain ⟨card, hcard, -⟩ := hone
    have hin : (⟨g.id, acc.id⟩ : Resource) ∈ specResources spec := by
      obtain ⟨hmem, hkey⟩ := mem_filter.mp (hcard ▸ mem_singleton_self card)
      exact mem_map.mpr ⟨card, hmem, of_decide_eq_true hkey⟩
    have hwalk : st = _ := hst.trans (foldPods_eq_walk
      (fun q hq => heldStatusOf_isSome ▸ Option.isSome_iff_exists.mpr (hread q hq)) hclean)
    rw [hwalk]
    exact statusModeOf_of_held (specResources_nodup_of_validated hinv) hclean hentry hin hmode

end Answer

/-! ### One card under two groups of one ID -/

/-- A running Pod with half of the card of `oneCard`, its record listing the card under each of the
given groups. -/
def halfCardPod (groups : List String) : Pod :=
  { uid := "a"
    nodeName := "n"
    containers := [{ name := "c" }]
    annotation := .recorded (AList.singleton "c" ⟨⟨groups.map fun id => ⟨id, "nvidia",
      [{ id := "x", mode := .sliced, allocated := 800000 }]⟩⟩, []⟩) }

theorem strict_rebuild_of_halfCardPod :
    ∃ status uids, buildDesiredStatusStrict true oneCard [halfCardPod ["g"]] = .ok (status, uids) ∧
      (HidesNoHolder true oneCard [halfCardPod ["g"]] status ↔
        ∀ pod ∈ [halfCardPod ["g"]], ∀ container a, recordOf pod container = some a →
          GroupsApart a.devices) :=
  ⟨_, _, rfl, strict_rebuild_hides_no_holder_iff rfl⟩

/-- The container holds half of the card; the strict ledger says nothing of it is left. -/
theorem strict_rebuild_charges_card_twice :
    ∃ status uids,
      buildDesiredStatusStrict true oneCard [halfCardPod ["g", "g"]] = .ok (status, uids) ∧
      (status.row ⟨"g", "x"⟩).map (fun row => (row.remaining, row.allocatedSlices)) = some (0, 2) ∧
      ¬ HidesNoHolder true oneCard [halfCardPod ["g", "g"]] status := by
  refine ⟨_, _, rfl, by decide +kernel, fun h => ?_⟩
  have honce := h.once _ (mem_singleton_self _) "c" _ rfl
  exact absurd honce (by decide)

end GpuStack
