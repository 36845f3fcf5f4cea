import GpuStack.Rollout.Slot

/-!
# Rollout/Resolve — one step of a replacement slot

A slot is resolved by questions to the server.  A slot whose ordinal the role no longer declares is
finished by cleanup; otherwise the captured members are removed, then the ordinal has to be vacant, then
the replacement has to be admitted.  `Vacant` and `Admitted` say what the reads behind an answer show.

What a step of a slot can write, and what it has read by then, is said once, in `resolves`.
-/

namespace GpuStack.Rollout

open Retirement

variable {S : Type}

/-! ## Vacancy -/

/-- The members of a role at one ordinal in a list of the server, those on their way out included. -/
def replacementOccupancyOnServer (pods : List (Member S)) (role : String) (ordinal : ℕ) :
    List (Member S) :=
  pods.filter fun pod => pod.owned ∧ pod.role = role ∧ pod.ordinalLabel = toString ordinal

/-- The Workload that stands on a slot's group name. -/
def replacementGroupWorkload (rules : PodRules S) (slot : ReplacementSlot)
    (workloads : List (Workload S)) : Option (Workload S) :=
  workloads.find? fun wl => wl.ownsGroupName (rules.replicaGroupName slot.role slot.ordinal)

/-- What still holds the slot's ordinal, if anything does. -/
def vacancyBlocker (rules : PodRules S) (slot : ReplacementSlot) (pods : List (Member S))
    (workloads : List (Workload S)) : Option String :=
  match replacementOccupancyOnServer pods slot.role slot.ordinal with
  | pod :: rest => some ("the server still holds "
      ++ ", ".intercalate (((pod :: rest).map (·.name)).insertionSort (· ≤ ·)))
  | [] =>
    match replacementGroupWorkload rules slot workloads with
    | some wl =>
      if wl.terminating then some ("workload " ++ wl.name ++ " is still terminating")
      else some ("workload " ++ wl.name ++ " still occupies the group")
    | none => none

/-- **The reads show the ordinal empty**: no Pod of the role carries its label, and no Workload stands
on the group's name. -/
def Vacant (rules : PodRules S) (role : String) (ordinal : ℕ) (pods : List (Member S))
    (workloads : List (Workload S)) : Prop :=
  (∀ pod ∈ pods, pod.owned = true → pod.role = role → pod.ordinalLabel ≠ toString ordinal) ∧
    ∀ wl ∈ workloads, wl.ownsGroupName (rules.replicaGroupName role ordinal) = false

variable {pods : List (Member S)} {workloads : List (Workload S)} {rules : PodRules S}
  {slot : ReplacementSlot}

theorem replacementOccupancyOnServer_eq_nil {role : String} {ordinal : ℕ} :
    replacementOccupancyOnServer pods role ordinal = [] ↔
      ∀ pod ∈ pods, pod.owned = true → pod.role = role → pod.ordinalLabel ≠ toString ordinal := by
  simp [replacementOccupancyOnServer, List.filter_eq_nil_iff]

theorem replacementGroupWorkload_eq_none : replacementGroupWorkload rules slot workloads = none ↔
      ∀ wl ∈ workloads, wl.ownsGroupName (rules.replicaGroupName slot.role slot.ordinal) = false := by
  simp [replacementGroupWorkload, List.find?_eq_none]

theorem vacancyBlocker_eq_none :
    vacancyBlocker rules slot pods workloads = none
      ↔ Vacant rules slot.role slot.ordinal pods workloads := by
  rw [Vacant, ← replacementOccupancyOnServer_eq_nil, ← replacementGroupWorkload_eq_none, vacancyBlocker]
  cases hpods : replacementOccupancyOnServer pods slot.role slot.ordinal with
  | cons pod rest => simp
  | nil =>
    cases hwl : replacementGroupWorkload rules slot workloads with
    | none => simp
    | some wl => simp only [reduceCtorEq, and_false, iff_false]; split <;> simp

/-! ## Admission -/

/-- An index two of these members sit at, or one of them and one seen before. -/
def duplicatedSeat (seen : List ℕ) : List (Member S) → Option ℕ
  | [] => none
  | pod :: pods => if pod.index ∈ seen then some pod.index else duplicatedSeat (pod.index :: seen) pods

/-- Why a seat does not hold the member rendered for it. -/
def seatMismatch (standing : List (Member S)) (minRenderVersion : ℕ) (seat : Rendered × ℕ) :
    Option String :=
  match standing.find? fun pod => pod.index = seat.2 with
  | none => some ("no member sits at index " ++ toString seat.2)
  | some pod =>
    if pod.matchesCurrency seat.1 minRenderVersion then none
    else some ("member " ++ pod.name ++ " does not carry the render this pass produced")

/-- How a standing group differs from the render, if it does. -/
def replacementMembersMismatch (want : List Rendered) (standing : List (Member S))
    (minRenderVersion : ℕ) : Option String :=
  if standing.length ≠ want.length then
    some ("the replica holds " ++ toString standing.length ++ " of the " ++ toString want.length
      ++ " members it is rendered at")
  else match duplicatedSeat [] standing with
    | some seat => some ("two members sit at index " ++ toString seat)
    | none =>
      match want.zipIdx.findSome? (seatMismatch standing minRenderVersion) with
      | some reason => some reason
      | none =>
        if renderVersionUniform standing then none
        else some "the replica's members carry different render versions"

/-- The pod set a member is composed into. -/
def roleHashOf (rules : PodRules S) (member : Member S) : Option String :=
  if member.roleHash ≠ "" then some member.roleHash else rules.generatedRoleHash member.spec

/-- Why a pod set does not describe one of the members composed into it. -/
def templateMismatch (rules : PodRules S) (wl : Workload S) (set : ComposedSet S)
    (members : List (Member S)) : Option String :=
  match members.find? fun member => rules.podShapesMatch set.template member.spec with
  | some member =>
    if rules.sameRequests set.template member.spec then none
    else some ("workload " ++ wl.name ++ " reserves resources in podset " ++ set.name
      ++ " that its members do not declare")
  | none => some ("workload " ++ wl.name ++ " describes a pod in podset " ++ set.name
      ++ " that its members do not match")

/-- Why a pod set the members compose to is not one the Workload asks for. -/
def podSetMismatch (rules : PodRules S) (wl : Workload S) (members : List (Member S))
    (hash : String) : Option String :=
  let group := members.filter fun member => roleHashOf rules member = some hash
  match wl.podSets.reverse.find? fun set => set.name = hash with
  | none => some ("workload " ++ wl.name ++ " carries no podset " ++ hash)
  | some set =>
    if set.count ≠ group.length then
      some ("workload " ++ wl.name ++ " asks for " ++ toString set.count ++ " pods in podset " ++ hash
        ++ ", not the " ++ toString group.length ++ " its members compose to")
    else templateMismatch rules wl set group

/-- How a Workload's pod sets differ from what the members compose to. -/
def replacementCompositionMismatch (rules : PodRules S) (wl : Workload S)
    (members : List (Member S)) : Option String :=
  let hashes := (members.filterMap (roleHashOf rules)).eraseDups
  if wl.podSets.length ≠ hashes.length then
    some ("workload " ++ wl.name ++ " describes " ++ toString wl.podSets.length
      ++ " podsets for members composing " ++ toString hashes.length)
  else hashes.findSome? (podSetMismatch rules wl members)

/-- The queue a render submits to. -/
def replacementQueueName (want : List Rendered) : String :=
  ((want.map (·.queue)).find? fun queue => queue ≠ "").getD ""

/-- Why a Workload is no fresh admission of the members standing, if it is none. -/
def replacementAdmissionRefusal (rules : PodRules S) (wl : Workload S) (standing : List (Member S))
    (want : List Rendered) : Option String :=
  if !wl.isAdmitted then some ("workload " ++ wl.name ++ " is not admitted yet")
  else if !wl.ownsAny (standing.map (·.uid)) then
    some ("workload " ++ wl.name ++ " owns none of the replica's current members")
  else match standing.find? fun member => !wl.ownsAny [member.uid] with
    | some member => some ("workload " ++ wl.name ++ " does not own member " ++ member.name)
    | none =>
      match replacementCompositionMismatch rules wl standing with
      | some reason => some reason
      | none =>
        if replacementQueueName want ≠ "" ∧ wl.queueName ≠ replacementQueueName want then
          some ("workload " ++ wl.name ++ " is queued on \"" ++ wl.queueName ++ "\" rather than \""
            ++ replacementQueueName want ++ "\"")
        else none

/-- What keeps the slot's replacement from being admitted. -/
def admissionBlocker (rules : PodRules S) (slot : ReplacementSlot) (want : List Rendered)
    (minRenderVersion : ℕ) (pods : List (Member S)) (workloads : List (Workload S)) : Option String :=
  let members := replacementOccupancyOnServer pods slot.role slot.ordinal
  match members.find? fun member => member.deleting with
  | some member => some ("member " ++ member.name ++ " is on its way out")
  | none =>
    match replacementMembersMismatch want members minRenderVersion with
    | some reason => some reason
    | none =>
      match replacementGroupWorkload rules slot workloads with
      | none => some "the group holds no workload yet"
      | some wl => replacementAdmissionRefusal rules wl members want

/-- **The reads show the replacement admitted**: the members at the ordinal are the rendered ones, one
at each index, current and none on its way out, and a Workload on the group's name is admitted and owns
every one of them. -/
structure Admitted (rules : PodRules S) (role : String) (ordinal : ℕ) (want : List Rendered)
    (minRenderVersion : ℕ) (pods : List (Member S)) (workloads : List (Workload S)) : Prop where
  standing : ∀ member ∈ replacementOccupancyOnServer pods role ordinal, member.deleting = false
  seated : ((replacementOccupancyOnServer pods role ordinal).map Member.index).Perm
    (List.range want.length)
  current : ∀ member ∈ replacementOccupancyOnServer pods role ordinal,
    member.matchesCurrency want[member.index]? minRenderVersion = true
  admitted : ∃ wl ∈ workloads, wl.ownsGroupName (rules.replicaGroupName role ordinal) = true
    ∧ wl.isAdmitted = true
    ∧ ∀ member ∈ replacementOccupancyOnServer pods role ordinal, member.uid ∈ wl.owners

theorem nodup_of_duplicatedSeat {seen : List ℕ} (h : duplicatedSeat seen pods = none) :
    (pods.map Member.index).Nodup ∧ ∀ pod ∈ pods, pod.index ∉ seen := by
  induction pods generalizing seen with
  | nil => simp
  | cons pod pods ih =>
    simp only [duplicatedSeat] at h
    split at h
    · cases h
    · next hseen =>
      obtain ⟨hnodup, hfresh⟩ := ih h
      refine ⟨List.nodup_cons.mpr ⟨fun hmem => ?_, hnodup⟩, List.forall_mem_cons.mpr ⟨hseen, ?_⟩⟩
      · obtain ⟨other, hother, heq⟩ := List.mem_map.mp hmem
        exact hfresh other hother (heq ▸ List.mem_cons_self)
      · exact fun other hother hold => hfresh other hother (List.mem_cons_of_mem _ hold)

/-- A group that does not differ from the render has its members on the seats of the render. -/
theorem of_replacementMembersMismatch {want : List Rendered} {standing : List (Member S)}
    {minRenderVersion : ℕ} (h : replacementMembersMismatch want standing minRenderVersion = none) :
    (standing.map Member.index).Perm (List.range want.length) ∧
      ∀ member ∈ standing, member.matchesCurrency want[member.index]? minRenderVersion = true := by
  simp only [replacementMembersMismatch] at h
  split at h
  · cases h
  next hlength =>
  split at h
  · cases h
  next hdup =>
  split at h
  · cases h
  next hseats =>
  -- each seat of the render holds a member that matches it
  have hheld : ∀ i (hi : i < want.length), ∃ member ∈ standing, member.index = i
      ∧ member.matchesCurrency want[i] minRenderVersion = true := by
    intro i hi
    have hseat : seatMismatch standing minRenderVersion (want[i], i) = none :=
      List.findSome?_eq_none_iff.mp hseats _ (by simp [List.mem_zipIdx_iff_getElem?, hi])
    simp only [seatMismatch] at hseat
    split at hseat
    · cases hseat
    next member hfind =>
    refine ⟨member, List.mem_of_find?_eq_some hfind, by simpa using List.find?_some hfind, ?_⟩
    split at hseat
    · assumption
    · cases hseat
  have hnodup := (nodup_of_duplicatedSeat hdup).1
  have hsub : List.range want.length ⊆ standing.map Member.index := by
    intro i hi
    obtain ⟨member, hmember, heq, -⟩ := hheld i (List.mem_range.mp hi)
    exact List.mem_map.mpr ⟨member, hmember, heq⟩
  have hperm : (List.range want.length).Perm (standing.map Member.index) := by
    refine (List.subperm_of_subset List.nodup_range hsub).perm_of_length_le ?_
    simp only [List.length_map, List.length_range]
    omega
  refine ⟨hperm.symm, fun member hmember => ?_⟩
  have hi : member.index < want.length :=
    List.mem_range.mp (hperm.mem_iff.mpr (List.mem_map_of_mem hmember))
  obtain ⟨other, hother, heq, hcurrent⟩ := hheld _ hi
  obtain rfl : other = member := List.inj_on_of_nodup_map hnodup hother hmember heq
  rw [List.getElem?_eq_getElem hi]
  exact hcurrent

/-- Where nothing keeps the replacement from being admitted, the reads show it admitted. -/
theorem admitted_of_admissionBlocker {want : List Rendered} {minRenderVersion : ℕ}
    (h : admissionBlocker rules slot want minRenderVersion pods workloads = none) :
    Admitted rules slot.role slot.ordinal want minRenderVersion pods workloads := by
  simp only [admissionBlocker] at h
  split at h
  · cases h
  next hstanding =>
  split at h
  · cases h
  next hmatch =>
  split at h
  · cases h
  next wl hwl =>
  obtain ⟨hseated, hcurrent⟩ := of_replacementMembersMismatch hmatch
  simp only [replacementAdmissionRefusal] at h
  split at h
  · cases h
  next hadmitted =>
  split at h
  · cases h
  split at h
  · cases h
  next howns =>
  rw [replacementGroupWorkload] at hwl
  refine ⟨?_, hseated, hcurrent, wl, List.mem_of_find?_eq_some hwl, ?_, ?_, ?_⟩
  · intro member hmember
    simpa using List.find?_eq_none.mp hstanding member hmember
  · simpa using List.find?_some hwl
  · simpa using hadmitted
  · intro member hmember
    simpa [Workload.ownsAny] using List.find?_eq_none.mp howns member hmember

/-! ## The step -/

/-- The lists one step of a slot reads, in the order it asks for them.  `pods` and `workloads` are
those behind the vacancy and the admission, of which a step asks for one at most. -/
structure SlotReads (S : Type) where
  captured : List (Member S) := []
  cleaned : List (Workload S) := []
  group : List (Workload S) := []
  recleaned : List (Workload S) := []
  pods : List (Member S) := []
  workloads : List (Workload S) := []

/-- What one step did about a slot. -/
structure ReplacementProgress where
  slot : ReplacementSlot
  cleared : Bool := false
  requeue : Bool := false
  effects : List Effect := []

/-- The members at a slot's ordinal that it did not capture. -/
def replacementUncapturedMembers (slot : ReplacementSlot) (pods : List (Member S)) :
    List (Member S) :=
  (pods.filter fun pod => pod.uid ∉ slot.memberUIDs).insertionSort fun a b => a.name ≤ b.name

def replacementRenderHashes (want : List Rendered) : List String := want.map (·.specHash)

/-- The replacement was rendered from a configuration the spec has since replaced. -/
def replacementSuperseded (slot : ReplacementSlot) (want : List Rendered) : Bool :=
  slot.memberHashes ≠ [] ∧ slot.memberHashes ≠ replacementRenderHashes want

/-- A member that cannot be one of the group being built. -/
def brokenMember (want : List Rendered) (minRenderVersion size : ℕ) (member : Member S) : Bool :=
  member.deleting ∨ !member.matchesCurrency want[member.index]? minRenderVersion
    ∨ (size < want.length ∧
      member.version ≠ renderVersionOf ((want[member.index]?.map (·.renderVersion)).getD ""))

/-- The Workload on the group's name is the one of the group being built. -/
def ownsCurrent (slot : ReplacementSlot) (standing : List (Member S)) (wl : Option (Workload S)) :
    Bool :=
  wl.any fun wl => wl.uid = slot.currentWorkloadUID
    ∨ wl.ownsAny (standing.map (·.uid) ++ slot.currentMemberUIDs)

/-- The group being built has lost a member, or holds one it cannot keep. -/
def replacementBroken (slot : ReplacementSlot) (want : List Rendered) (minRenderVersion : ℕ)
    (standing : List (Member S)) (wl : Option (Workload S)) : Bool :=
  standing.any (brokenMember want minRenderVersion standing.length)
    ∨ !renderVersionUniform standing
    ∨ (slot.currentMemberUIDs.any fun uid => uid ∉ standing.map (·.uid))
    ∨ (ownsCurrent slot standing wl ∧ standing.length < want.length)

/-- The slot in which a broken or superseded replacement is taken down again. -/
def reopenedSlot (slot : ReplacementSlot) (standing : List (Member S)) (wl : Option (Workload S)) :
    ReplacementSlot where
  role := slot.role
  ordinal := slot.ordinal
  phase := .cleanup
  memberUIDs := uidList (standing.map (·.uid) ++ slot.currentMemberUIDs)
  workloadUID :=
    match wl with
    | some wl => if ownsCurrent slot standing (some wl) then wl.uid else slot.currentWorkloadUID
    | none => slot.currentWorkloadUID

/-- The slot with what is seen of its replacement. -/
def observedSlot (slot : ReplacementSlot) (standing : List (Member S)) (wl : Option (Workload S)) :
    ReplacementSlot :=
  { slot with
    currentMemberUIDs := uidList (standing.map (·.uid))
    currentWorkloadUID :=
      match wl with
      | some wl => if ownsCurrent slot standing (some wl) then wl.uid else slot.currentWorkloadUID
      | none => slot.currentWorkloadUID }

/-- The slot that waits for the admission of what is rendered now. -/
def waitingSlot (role : String) (ordinal : ℕ) (want : List Rendered) : ReplacementSlot where
  role := role
  ordinal := ordinal
  phase := .waitingForAdmission
  memberHashes := replacementRenderHashes want

/-- The last question of a step: vacancy while no replacement stands, admission from then on. -/
def settleSlot (rules : PodRules S) (minRenderVersion : ℕ) (want : List Rendered)
    (reads : SlotReads S) (slot : ReplacementSlot) (standing : List (Member S))
    (effects : List Effect) : ReplacementProgress :=
  if standing.isEmpty then
    match vacancyBlocker rules slot reads.pods reads.workloads with
    | some _ => { slot, effects }
    | none =>
      if slot.phase = .cleanup ∨ slot.memberHashes = [] then
        { slot := waitingSlot slot.role slot.ordinal want
          effects := effects ++ [.advanceSlot (waitingSlot slot.role slot.ordinal want)] }
      else { slot, effects }
  else match admissionBlocker rules slot want minRenderVersion reads.pods reads.workloads with
    | some _ => { slot, effects }
    | none => { slot, cleared := true, effects }

/-- **One step of a role's slot.** -/
def resolveReplacementSlot (rules : PodRules S) (minRenderVersion replicas : ℕ)
    (want : List Rendered) (reads : SlotReads S) (slot : ReplacementSlot) : ReplacementProgress :=
  let captured := replacementOccupancyOnServer reads.captured slot.role slot.ordinal
  if replicas ≤ slot.ordinal then
    -- a cancelled slot is finished by cleanup alone
    let effects := cleanReplacementSlot slot captured reads.cleaned
    match vacancyBlocker rules slot reads.pods reads.workloads with
    | some _ => { slot, requeue := true, effects }
    | none => { slot, cleared := true, effects }
  else
    let mine := replacementStandingMemberDeletes slot captured
    let standing := replacementUncapturedMembers slot captured
    match slot.phase with
    | .cleanup =>
      let effects := cleanReplacementSlot slot mine reads.cleaned
      if mine.isEmpty then settleSlot rules minRenderVersion want reads slot standing effects
      else { slot, requeue := true, effects }
    | .waitingForAdmission =>
      let wl := replacementGroupWorkload rules slot reads.group
      if replacementBroken slot want minRenderVersion standing wl || replacementSuperseded slot want then
        let next := reopenedSlot slot standing wl
        { slot := next
          requeue := true
          effects := .advanceSlot next :: cleanReplacementSlot next standing reads.recleaned }
      else
        let seen := observedSlot slot standing wl
        settleSlot rules minRenderVersion want reads seen standing [.advanceSlot seen]

/-! ## Filling a group -/

/-- The members a slot's group is short of, where they may be added: to a group of this very render,
declared at this size, that no Workload is composed for yet. -/
def missingGroupMembers (slot : ReplacementSlot) (want : List Rendered) (pods : List (Member S))
    (workloads : List (Workload S)) : List Rendered :=
  let standing := replacementOccupancyOnServer pods slot.role slot.ordinal
  let stands (seat : ℕ) : Option (Member S) := standing.find? fun member => member.index = seat
  let differs (seat : Rendered × ℕ) : Bool := (stands seat.2).any fun member =>
    member.specHash ≠ seat.1.specHash ∨ member.version ≠ renderVersionOf seat.1.renderVersion
  if standing.any (·.deleting) ∨ standing.isEmpty ∨ want.length ≤ standing.length
      ∨ (standing.any fun member => want.length ≤ member.index)
      ∨ (duplicatedSeat [] standing).isSome ∨ want.zipIdx.any differs then []
  else match replicaDeclaredTotal 0 (standing.map Member.toMemberPod) with
    | .error _ => []
    | .ok total =>
      if total ≠ want.length ∨ workloads.any fun wl => wl.ownsAny (standing.map (·.uid)) then []
      else (want.zipIdx.filter fun seat => (stands seat.2).isNone).map (·.1)

/-! ## What a step can do -/

/-- **What one step of a slot can do.**  Each outcome comes with the effects that lead to it, and
with what the step has read: a slot is cleared on a vacancy its role no longer declares or on an
admission, and goes on to wait on a vacancy. -/
inductive Resolves (rules : PodRules S) (minRenderVersion replicas : ℕ) (want : List Rendered)
    (reads : SlotReads S) (slot : ReplacementSlot) : ReplacementProgress → Prop
  | held {members : List (Member S)} {listed : List (Workload S)} {requeue : Bool} :
      Resolves rules minRenderVersion replicas want reads slot
        { slot, requeue, effects := cleanReplacementSlot slot members listed }
  | cancelled {members : List (Member S)} {listed : List (Workload S)}
      (hordinal : replicas ≤ slot.ordinal)
      (hvacant : Vacant rules slot.role slot.ordinal reads.pods reads.workloads) :
      Resolves rules minRenderVersion replicas want reads slot
        { slot, cleared := true, effects := cleanReplacementSlot slot members listed }
  | vacated {members : List (Member S)} {listed : List (Workload S)}
      (hphase : slot.phase = .cleanup) (hordinal : slot.ordinal < replicas)
      (hvacant : Vacant rules slot.role slot.ordinal reads.pods reads.workloads) :
      Resolves rules minRenderVersion replicas want reads slot
        { slot := waitingSlot slot.role slot.ordinal want
          effects := cleanReplacementSlot slot members listed
            ++ [.advanceSlot (waitingSlot slot.role slot.ordinal want)] }
  | admitted {members : List (Member S)} {listed : List (Workload S)}
      (hphase : slot.phase = .cleanup)
      (hadmitted : Admitted rules slot.role slot.ordinal want minRenderVersion reads.pods
        reads.workloads) :
      Resolves rules minRenderVersion replicas want reads slot
        { slot, cleared := true, effects := cleanReplacementSlot slot members listed }
  | reopened {standing members : List (Member S)} {wl : Option (Workload S)}
      {listed : List (Workload S)}
      (hphase : slot.phase = .waitingForAdmission) (hordinal : slot.ordinal < replicas) :
      Resolves rules minRenderVersion replicas want reads slot
        { slot := reopenedSlot slot standing wl
          requeue := true
          effects := .advanceSlot (reopenedSlot slot standing wl)
            :: cleanReplacementSlot (reopenedSlot slot standing wl) members listed }
  | waiting {seen later : ReplacementSlot} {cleared : Bool} {effects : List Effect}
      (hphase : slot.phase = .waitingForAdmission)
      (hseen : seen.role = slot.role ∧ seen.ordinal = slot.ordinal ∧ seen.phase = slot.phase)
      (hlater : later = seen ∧ effects = [] ∨ effects = [.advanceSlot later]
        ∧ later = waitingSlot slot.role slot.ordinal want)
      (hcleared : cleared = true → effects = [] ∧
        Admitted rules slot.role slot.ordinal want minRenderVersion reads.pods reads.workloads) :
      Resolves rules minRenderVersion replicas want reads slot
        { slot := later, cleared, effects := .advanceSlot seen :: effects }

theorem resolves (rules : PodRules S) (minRenderVersion replicas : ℕ) (want : List Rendered)
    (reads : SlotReads S) (slot : ReplacementSlot) :
    Resolves rules minRenderVersion replicas want reads slot
      (resolveReplacementSlot rules minRenderVersion replicas want reads slot) := by
  simp only [resolveReplacementSlot]
  split
  · next hordinal =>
    split
    · exact .held
    · next hvacant => exact .cancelled hordinal (vacancyBlocker_eq_none.mp hvacant)
  next hordinal =>
  rw [not_le] at hordinal
  split
  · next hphase =>
    split
    · simp only [settleSlot]
      split
      · split
        · exact .held
        · next hvacant =>
          rw [if_pos (.inl hphase)]
          exact .vacated hphase hordinal (vacancyBlocker_eq_none.mp hvacant)
      · split
        · exact .held
        · next hadmitted => exact .admitted hphase (admitted_of_admissionBlocker hadmitted)
    · exact .held
  · next hphase =>
    split
    · exact .reopened hphase hordinal
    · simp only [settleSlot]
      have hseen : ∀ (standing : List (Member S)) wl,
          (observedSlot slot standing wl).role = slot.role
            ∧ (observedSlot slot standing wl).ordinal = slot.ordinal
            ∧ (observedSlot slot standing wl).phase = slot.phase := fun _ _ => ⟨rfl, rfl, rfl⟩
      split
      · split
        · exact .waiting hphase (hseen _ _) (.inl ⟨rfl, rfl⟩) (fun h => by cases h)
        · split
          · exact .waiting hphase (hseen _ _) (.inr ⟨rfl, rfl⟩) (fun h => by cases h)
          · exact .waiting hphase (hseen _ _) (.inl ⟨rfl, rfl⟩) (fun h => by cases h)
      · split
        · exact .waiting hphase (hseen _ _) (.inl ⟨rfl, rfl⟩) (fun h => by cases h)
        · next hadmitted =>
          exact .waiting hphase (hseen _ _) (.inl ⟨rfl, rfl⟩) fun _ =>
            ⟨rfl, admitted_of_admissionBlocker hadmitted⟩

end GpuStack.Rollout
