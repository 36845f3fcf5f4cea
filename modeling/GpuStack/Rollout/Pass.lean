import GpuStack.Rollout.Resolve

/-!
# Rollout/Pass — one convergence pass of a deployment

A pass goes over the roles of the spec.  For each it moves the role's slot by a step, counts the Pods
against the declared ordinals and sheds the surplus, finds the replicas that are outdated, turns over at
most one of them, and decides which ordinals to create.  The creates are issued afterwards, role by
role; a slot still in cleanup goes on to wait for admission right before its members are created.

The pass decides from the slots of the object it starts from; `passEffects` lists what it writes.  What
it reads on the way is in `RoleReads` and `PassInputs`, one list for each read.
-/

namespace GpuStack.Rollout

open Retirement

variable {S : Type}

/-! ## What a pass reads -/

/-- A role as the spec declares it and this pass renders it, member by member at each ordinal. -/
structure RoleSpec where
  name : String
  replicas : ℕ
  encode : Bool := false
  want : ℕ → List Rendered := fun _ => []

/-- What the retirement protocol claims of a role: the Pods it holds when the count is taken and after
the hand-overs of this pass, the removals it takes over, and the ordinals it names or is emptying. -/
structure RetirementHold where
  holds : String → Bool := fun _ => false
  refuses : String → Bool := fun _ => false
  refusesShed : Bool := false
  holdsNow : String → Bool := fun _ => false
  names : ℕ → Bool := fun _ => false
  reserves : Option ℕ := none

/-- The lists a pass reads for one role. -/
structure RoleReads (S : Type) where
  slot : SlotReads S := {}
  retirement : RetirementHold := {}
  turned : List (Workload S) := []
  fillPods : List (Member S) := []
  fillWorkloads : List (Workload S) := []
  taken : List (Member S) := []
  takenWorkloads : List (Workload S) := []
  recorded : List (Member S) := []

/-- **What one pass starts from**, apart from the slots: the spec, the Pods of the cache, and every list
it reads. -/
structure PassInputs (S : Type) where
  spec : List RoleSpec
  spec_nodup : (spec.map (·.name)).Nodup
  minRenderVersion : ℕ := 1
  actual : List (Member S) := []
  refusesUndeclared : String → Bool := fun _ => false
  connectionLost : Bool := false
  weightsBlocked : Bool := false
  workloads : List (Workload S) := []
  standing : String → Option (Member S) := fun _ => none
  reads : String → RoleReads S := fun _ => {}
  recordOrder : List String := []

/-! ## The Pods that are no replica any more -/

def Member.isTerminal (pod : Member S) : Bool := pod.phase = .failed ∨ pod.phase = .succeeded

/-- The Pods the pass sends away first: of a role the spec does not name, or in a terminal phase. -/
def departedPods (pass : PassInputs S) : List (Member S) :=
  pass.actual.filter fun pod => !pod.deleting &&
    if pod.role ∈ pass.spec.map (·.name) then pod.isTerminal else !pass.refusesUndeclared pod.uid

/-- The Pods a role has to count. -/
def livePods (pass : PassInputs S) (role : String) : List (Member S) :=
  pass.actual.filter fun pod => pod.role = role ∧ !pod.deleting ∧ !pod.isTerminal

def departureEffects (pods : List (Member S)) : List Effect :=
  if pods.isEmpty then []
  else pods.map (fun pod => .deletePod pod.uid) ++ [.deleteGroupWorkloads (pods.map (·.uid))]

/-! ## The count -/

/-- The role keeps the Pod: it is held, claims no ordinal, or claims one the role declares. -/
def keepsPod (role : RoleSpec) (hold : RetirementHold) (pod : Member S) : Bool :=
  hold.holds pod.uid ||
    match pod.ordinal with
    | none => true
    | some ordinal => ordinal < role.replicas || hold.refuses pod.uid

/-- A role as counted. -/
structure Census (S : Type) where
  kept : List (Member S)
  removed : List (Member S)
  occupied : List ℕ
  orphans : ℕ

def census (role : RoleSpec) (hold : RetirementHold) (minRenderVersion : ℕ)
    (live : List (Member S)) : Census S :=
  let kept := live.filter (keepsPod role hold)
  let removed := live.filter fun pod => !keepsPod role hold pod
  let occupied := (kept.filterMap Member.ordinal).dedup
  let orphans := (kept.filter fun pod => !hold.holds pod.uid && pod.ordinal.isNone).length
  let surplus := surplusCount [] kept
  let shed := surplusReplicas kept role.want surplus minRenderVersion
  if surplus = 0 ∨ ((shed.head?.bind Member.ordinal).isSome ∧ hold.refusesShed) then
    { kept, removed, occupied, orphans }
  else
    { kept := kept.filter fun pod => pod.uid ∉ shed.map (·.uid)
      removed := removed ++ shed
      occupied, orphans }

/-- Removals are issued from the highest ordinal down. -/
def removedBefore (a b : Member S) : Bool :=
  if a.ordinalOrFloor ≠ b.ordinalOrFloor then b.ordinalOrFloor < a.ordinalOrFloor else b.name ≤ a.name

/-! ## What is outdated -/

/-- A member that is not what its seat renders, and that no retirement holds. -/
def outdatedMember (role : RoleSpec) (hold : RetirementHold) (minRenderVersion ordinal : ℕ)
    (pod : Member S) : Bool :=
  !pod.matchesCurrency (role.want ordinal)[pod.index]? minRenderVersion && !hold.holdsNow pod.uid

/-- A replica short of the members it declares, unless a retirement names it. -/
def incompleteAt (hold : RetirementHold) (kept : List (Member S)) (ordinal : ℕ) : Bool :=
  !hold.names ordinal && isIncomplete (replicaShape (replicaMembers kept ordinal))

def outdatedAt (role : RoleSpec) (hold : RetirementHold) (minRenderVersion : ℕ)
    (kept : List (Member S)) (ordinal : ℕ) : Bool :=
  (replicaMembers kept ordinal).any (outdatedMember role hold minRenderVersion ordinal)
    || incompleteAt hold kept ordinal
    || (!hold.names ordinal && !renderVersionUniform (replicaMembers kept ordinal))

/-- The Pods to turn over: those without an ordinal, and whole replicas. -/
def outdatedPods (role : RoleSpec) (hold : RetirementHold) (pass : PassInputs S)
    (counted : Census S) : List (Member S) :=
  if pass.connectionLost ∨ pass.weightsBlocked then []
  else (counted.kept.filter fun pod => pod.ordinal.isNone)
    ++ (counted.occupied.filter (outdatedAt role hold pass.minRenderVersion counted.kept)).flatMap
      (replicaMembers counted.kept)

/-! ## The turn-over -/

/-- The members of the outdated replicas that wait for their first admission. -/
def initiallyQueued (pass : PassInputs S) (outdated : List (Member S)) : List (Member S) :=
  (outdated.filterMap Member.ordinal).dedup.flatMap fun ordinal =>
    (initialQueuedReplica pass.standing pass.workloads (replicaMembers outdated ordinal)).getD []

/-- The Pods a turn-over picks from, where one may be made. -/
def turnOverPick (role : RoleSpec) (hold : RetirementHold) (pass : PassInputs S)
    (live kept outdated : List (Member S)) (holding : Bool) : Option (List (Member S)) :=
  let ungated := outdated.filter fun pod => pod.ordinal.isNone
  let broken := outdated.filter fun pod => pod.ordinal.any (incompleteAt hold kept)
  let admitted := admittedReplicas pass.workloads live
  if !broken.isEmpty ∧ !holding then some broken
  else if !ungated.isEmpty then some ungated
  else if holding then none
  else if admitted = role.replicas then some outdated
  else
    let queued := initiallyQueued pass outdated
    if queued.isEmpty then none else some queued

/-- The Pod a turn-over picks, and the members of its replica. -/
def turnOver (pick : List (Member S)) : Option (Member S × List (Member S)) :=
  (highestOrdinalReplica pick).map fun pod =>
    (pod, match pod.ordinal with
      | some ordinal => replicaMembers pick ordinal
      | none => [pod])

/-- The slot a turn-over records before it deletes anything. -/
def replacementCapturedIdentities (role : String) (ordinal : ℕ) (members : List (Member S))
    (workloads : List (Workload S)) : ReplacementSlot where
  role := role
  ordinal := ordinal
  phase := .cleanup
  memberUIDs := (members.map (·.uid)).insertionSort (· ≤ ·)
  workloadUID := ((replicaOwningWorkload members workloads).map (·.uid)).getD ""

/-- What a turn-over writes, and the slots it goes on with. -/
def turnOverEffects (role : String) (pass : PassInputs S) (slots : ReplacementSlots)
    (pod : Member S) (departing : List (Member S)) : List Effect × ReplacementSlots :=
  match pod.ordinal with
  | none => ([.deletePod pod.uid, .deleteGroupWorkloads [pod.uid]], slots)
  | some ordinal =>
    let slot := replacementCapturedIdentities role ordinal departing pass.workloads
    match (slots.slotFor role).filter fun held => held.ordinal = ordinal with
    | some held => (cleanReplacementSlot held departing (pass.reads role).turned, slots)
    | none => (.beginSlot slot :: cleanReplacementSlot slot departing (pass.reads role).turned,
        slots.setSlot slot)

/-! ## The creates -/

/-- The groups of a role that hold a Pod. -/
def takenGroups (pods : List (Member S)) : List String :=
  ((pods.filter fun pod => pod.owned).map (·.group)).filter fun group => group ≠ ""

/-- The server holds the group of an ordinal: by a Pod that carries its name, or, for the ordinals the
role declares, by a Workload that stands on it. -/
def groupTaken (rules : PodRules S) (role : RoleSpec) (reads : RoleReads S) (group : String) : Bool :=
  group ∈ takenGroups reads.taken
    ∨ (group ∈ (List.range role.replicas).map (rules.replicaGroupName role.name)
      ∧ reads.takenWorkloads.any fun wl => wl.ownsGroupName group)

/-- The ordinals to create: that of the slot first, then the lowest, as many as the count is short. -/
def createOrdinals (rules : PodRules S) (role : RoleSpec) (reads : RoleReads S) (counted : Census S)
    (holding : Option ReplacementSlot) : List ℕ :=
  let missing := role.replicas - counted.occupied.length - counted.orphans
  let free (ordinal : ℕ) : Bool := ordinal ∉ counted.occupied
    ∧ !groupTaken rules role reads (rules.replicaGroupName role.name ordinal)
  let first := ((holding.map (·.ordinal)).filter free).toList
  if missing = 0 then []
  else first ++ ((List.range role.replicas).filter fun ordinal =>
    ordinal ∉ first ∧ reads.retirement.reserves ≠ some ordinal ∧ free ordinal).take
      (missing - first.length)

/-! ## One role -/

/-- What a pass decided about a role. -/
structure RolePlan where
  creates : List ℕ := []
  fills : List Rendered := []

structure RoleOutcome where
  effects : List Effect
  slots : ReplacementSlots
  plan : RolePlan

/-- The role's slot moved by one step: the effects, the slots to go on with, and the slot that holds the
role. -/
def resolveRole (rules : PodRules S) (pass : PassInputs S) (slots : ReplacementSlots)
    (role : RoleSpec) : List Effect × ReplacementSlots × Option ReplacementSlot :=
  match slots.slotFor role.name with
  | none => ([], slots, none)
  | some slot =>
    let resolved := resolveReplacementSlot rules pass.minRenderVersion role.replicas
      (role.want slot.ordinal) (pass.reads role.name).slot slot
    if resolved.cleared then
      (resolved.effects ++ [.endSlot role.name], slots.clearRole role.name, none)
    else (resolved.effects, slots.setSlot resolved.slot, some resolved.slot)

/-- The Pod a role turns over in this pass and the members that go with it; none beside a removal. -/
def roleTurnOver (pass : PassInputs S) (role : RoleSpec) (holding : Bool) :
    Option (Member S × List (Member S)) :=
  let hold := (pass.reads role.name).retirement
  let live := livePods pass role.name
  let counted := census role hold pass.minRenderVersion live
  let outdated := outdatedPods role hold pass counted
  if outdated.isEmpty ∨ !counted.removed.isEmpty then none
  else (turnOverPick role hold pass live counted.kept outdated holding).bind turnOver

/-- **One role of a pass.** -/
def convergeRole (rules : PodRules S) (pass : PassInputs S) (slots : ReplacementSlots)
    (role : RoleSpec) : RoleOutcome :=
  let reads := pass.reads role.name
  let (resolved, slots, holding) := resolveRole rules pass slots role
  let counted := census role reads.retirement pass.minRenderVersion (livePods pass role.name)
  let removals := departureEffects (counted.removed.insertionSort fun a b => removedBefore a b)
  let turned := match roleTurnOver pass role holding.isSome with
    | none => ([], slots)
    | some (pod, departing) => turnOverEffects role.name pass slots pod departing
  { effects := resolved ++ removals ++ turned.1
    slots := turned.2
    plan :=
      { creates := createOrdinals rules role reads counted holding
        fills := (holding.map fun slot => missingGroupMembers slot (role.want slot.ordinal)
          reads.fillPods reads.fillWorkloads).getD [] } }

/-! ## The pass -/

/-- All roles in turn: the effects, the slots to go on with, and the plan of each role. -/
def convergeRoles (rules : PodRules S) (pass : PassInputs S) :
    ReplacementSlots → List RoleSpec → List Effect × ReplacementSlots × (String → RolePlan)
  | slots, [] => ([], slots, fun _ => {})
  | slots, role :: roles =>
    let outcome := convergeRole rules pass slots role
    let rest := convergeRoles rules pass outcome.slots roles
    (outcome.effects ++ rest.1, rest.2.1,
      fun name => if name = role.name then outcome.plan else rest.2.2 name)

/-- The creates of one role; a slot in cleanup goes on to wait before its members are created. -/
def createReplicas (role : RoleSpec) : ReplacementSlots → List ℕ → List Effect × ReplacementSlots
  | slots, [] => ([], slots)
  | slots, ordinal :: ordinals =>
    let created := (role.want ordinal).map (.create role.name ordinal)
    if (slots.slotFor role.name).any fun held => held.ordinal = ordinal ∧ held.phase = .cleanup then
      let slot := waitingSlot role.name ordinal (role.want ordinal)
      let rest := createReplicas role (slots.setSlot slot) ordinals
      (.advanceSlot slot :: created ++ rest.1, rest.2)
    else
      let rest := createReplicas role slots ordinals
      (created ++ rest.1, rest.2)

/-- The creates of all roles. -/
def createRoles (plans : String → RolePlan) :
    ReplacementSlots → List RoleSpec → List Effect × ReplacementSlots
  | slots, [] => ([], slots)
  | slots, role :: roles =>
    let whole := createReplicas role slots (plans role.name).creates
    let filled := (plans role.name).fills.map
      (.create role.name ((slots.slotFor role.name).elim 0 (·.ordinal)))
    let rest := createRoles plans whole.2 roles
    (whole.1 ++ filled ++ rest.1, rest.2)

/-- The order creates are issued in: encoders last. -/
def createRoleOrder (spec : List RoleSpec) : List RoleSpec :=
  (spec.filter fun role => !role.encode) ++ spec.filter fun role => role.encode

/-- The members that stand after the creates, recorded on the slots that wait for them. -/
def recordMembers (pass : PassInputs S) (plans : String → RolePlan) (slots : ReplacementSlots) :
    List Effect :=
  pass.recordOrder.filterMap fun name =>
    ((slots.slotFor name).filter fun slot => slot.phase = .waitingForAdmission
      ∧ ¬((plans name).creates.isEmpty ∧ (plans name).fills.isEmpty)).map fun slot =>
        .advanceSlot { slot with
          currentMemberUIDs := uidList ((replacementOccupancyOnServer (pass.reads name).recorded name
            slot.ordinal).map (·.uid)) }

/-- **The effects of one pass** that starts from these slots. -/
def passEffects (rules : PodRules S) (pass : PassInputs S) (slots : ReplacementSlots) : List Effect :=
  let converged := convergeRoles rules pass slots pass.spec
  let plans := if pass.weightsBlocked then fun _ => {} else converged.2.2
  let created := createRoles plans converged.2.1 (createRoleOrder pass.spec)
  departureEffects (departedPods pass) ++ converged.1 ++ created.1
    ++ recordMembers pass plans created.2

/-! ## A deployment with one role

The role `decode` of one-member replicas, with its Pods and Workloads as its own passes create them. -/

namespace Decode

def groupRules : PodRules Unit where
  replicaGroupName role ordinal := "model-" ++ (role ++ toString ordinal)
  replicaGroupName_ne role ordinal h := by
    have hlength := congrArg String.length h
    simp at hlength

/-- The role after an edit of its spec. -/
def edited (replicas : ℕ) : RoleSpec where
  name := "decode"
  replicas := replicas
  want ordinal := if ordinal < replicas then [{ specHash := "edited", renderVersion := "4" }] else []

theorem nodup_edited (replicas : ℕ) : ([edited replicas].map (·.name)).Nodup := List.nodup_singleton _

/-- The Pod of an ordinal, built from the spec of this fingerprint. -/
def pod (specHash : String) (ordinal : ℕ) : Member Unit where
  uid := "pod" ++ toString ordinal
  name := "decode-" ++ toString ordinal
  role := "decode"
  ordinalLabel := toString ordinal
  memberIndex := some "0"
  groupTotal := some "1"
  group := groupRules.replicaGroupName "decode" ordinal
  specHash := specHash
  renderVersion := "4"
  spec := ()

/-- The Workload of an ordinal. -/
def workload (admitted : ConditionStatus) (ordinal : ℕ) : Workload Unit where
  uid := "workload" ++ toString ordinal
  name := groupRules.replicaGroupName "decode" ordinal
  owners := ["pod" ++ toString ordinal]
  conditions := [⟨.admitted, admitted, false⟩]

/-- Two replicas, both admitted and both built before the edit. -/
def outdatedPair : PassInputs Unit where
  spec := [edited 2]
  spec_nodup := nodup_edited 2
  actual := [pod "first" 0, pod "first" 1]
  workloads := [workload .yes 0, workload .yes 1]
  reads _ := { turned := [workload .yes 0, workload .yes 1] }

/-- The slot in which the higher replica is replaced. -/
def pairSlot : ReplacementSlot where
  role := "decode"
  ordinal := 1
  phase := .cleanup
  memberUIDs := ["pod1"]
  workloadUID := "workload1"

example : passEffects groupRules outdatedPair .empty
    = [.beginSlot pairSlot, .deleteMember pairSlot "pod1", .deleteWorkload pairSlot "workload1"] := by
  decide +kernel

end Decode

end GpuStack.Rollout
