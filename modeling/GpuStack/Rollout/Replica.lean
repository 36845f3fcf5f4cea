import GpuStack.Retirement.Drain

/-!
# Rollout/Replica — the members of a role, and the Workloads that own them

A convergence pass reads a role as Pods seated on ordinals.  What a Pod says about its seat is in its
labels; what the role would build there is a render, known by its fingerprint and its version; whether
the seat holds quota is what the Workloads say that name the Pod as an owner.

The spec of a Pod is compared only by the rules Kueue composes a group with (`PodRules`), so it stays
a parameter.
-/

namespace GpuStack.Rollout

open Retirement

/-! ## Pods and renders -/

/-- A member as this pass renders it. -/
structure Rendered where
  specHash : String
  renderVersion : String := ""
  queue : String := ""
deriving DecidableEq

/-- A Pod of the deployment with what the rollout reads of it: the group it carries the name of, the
fingerprint and version it was rendered at, and how far it has started. -/
structure Member (S : Type) extends MemberPod where
  owned : Bool := true
  group : String := ""
  specHash : String := ""
  renderVersion : String := ""
  roleHash : String := ""
  spec : S
  nodeName : String := ""
  reportsContainers : Bool := false
  gated : Bool := false

/-- How Kueue composes Pods, and how this operator names their groups. -/
structure PodRules (S : Type) where
  replicaGroupName : String → ℕ → String
  replicaGroupName_ne : ∀ role ordinal, replicaGroupName role ordinal ≠ ""
  generatedRoleHash : S → Option String := fun _ => none
  podShapesMatch : S → S → Bool := fun _ _ => true
  sameRequests : S → S → Bool := fun _ _ => true

variable {S : Type}

/-- The version an annotation carries, zero when it carries none. -/
def renderVersionOf (text : String) : ℕ :=
  match atoi text with
  | none => 0
  | some version => if version ≤ 0 then 0 else version.toNat

namespace Member

def version (pod : Member S) : ℕ := renderVersionOf pod.renderVersion

def ordinal (pod : Member S) : Option ℕ := podOrdinal pod.toMemberPod

/-- The ordinal, with a Pod that claims none below every seat. -/
def ordinalOrFloor (pod : Member S) : ℤ :=
  match pod.ordinal with
  | none => -1
  | some ordinal => ordinal

/-- Which member of its replica the Pod was rendered as; the leader when the label does not say. -/
def index (pod : Member S) : ℕ := (pod.memberIndex.bind Retirement.index).getD 0

/-- The Pod carries the fingerprint of what its seat renders, and no version below the floor. -/
def matchesCurrency (pod : Member S) (want : Option Rendered) (minRenderVersion : ℕ) : Bool :=
  match want with
  | none => false
  | some rendered => pod.specHash = rendered.specHash ∧ minRenderVersion ≤ pod.version

def seat (pod : Member S) : Option (ℕ × ℕ) := pod.ordinal.map fun ordinal => (ordinal, pod.index)

end Member

/-- All members of a replica carry one render version. -/
def renderVersionUniform : List (Member S) → Bool
  | [] => true
  | first :: rest => rest.all fun pod => pod.version = first.version

/-- The Pods seated on one ordinal. -/
def replicaMembers (pods : List (Member S)) (ordinal : ℕ) : List (Member S) :=
  pods.filter fun pod => pod.ordinal = some ordinal

def replicaShape (members : List (Member S)) : ReplicaShape :=
  deployedReplicaShape (members.map Member.toMemberPod)

def isIncomplete : ReplicaShape → Bool
  | .incomplete _ _ => true
  | _ => false

def isWhole : ReplicaShape → Bool
  | .complete _ => true
  | _ => false

/-! ## Workloads -/

inductive ConditionType
  | admitted
  | evicted
  | preempted
  | requeued
  | finished
  | podsReady
  | other
deriving DecidableEq

inductive ConditionStatus
  | yes
  | no
  | unknown
deriving DecidableEq

structure Condition where
  type : ConditionType
  status : ConditionStatus
  waitForRecovery : Bool := false
deriving DecidableEq

structure ComposedSet (S : Type) where
  name : String
  count : ℕ
  template : S

/-- A Workload.  `owners` are the UIDs of the Pods among its owner references. -/
structure Workload (S : Type) where
  uid : String
  name : String
  terminating : Bool := false
  podSets : List (ComposedSet S) := []
  owners : List String := []
  queueName : String := ""
  conditions : List Condition := []
  pastExecution : Bool := false
  requeueState : Bool := false
  reclaimablePods : Bool := false
  evictions : Bool := false

namespace Workload

/-- The condition Kueue grants quota with. -/
def isAdmitted (wl : Workload S) : Bool :=
  match wl.conditions.find? fun condition => condition.type = .admitted with
  | some condition => condition.status = .yes
  | none => false

def ownsAny (wl : Workload S) (uids : List String) : Bool := wl.owners.any fun uid => uid ∈ uids

/-- The Workload stands on a group's name: by its own, or by that of one of its pod sets. -/
def ownsGroupName (wl : Workload S) (group : String) : Bool :=
  wl.name = group ∨ wl.podSets.any fun set => set.name = group

/-- A condition the Workload can carry while it waits for its first admission. -/
def initialCondition (condition : Condition) : Bool :=
  match condition.type with
  | .admitted => condition.status = .no
  | .evicted | .preempted | .requeued | .finished => false
  | .podsReady => condition.status = .no ∧ !condition.waitForRecovery
  | .other => true

/-- Nothing of the Workload speaks of an admission, an execution or an eviction. -/
def inInitialQueue (wl : Workload S) : Bool :=
  !wl.pastExecution && !wl.requeueState && !wl.reclaimablePods && !wl.evictions
    && wl.conditions.all initialCondition

end Workload

/-- How many Workloads that own one of these Pods are admitted. -/
def admittedReplicas (workloads : List (Workload S)) (pods : List (Member S)) : ℕ :=
  (workloads.filter fun wl => wl.ownsAny (pods.map (·.uid)) && wl.isAdmitted).length

/-- The first Workload to claim a member, for the first member one claims. -/
def replicaOwningWorkload (members : List (Member S)) (workloads : List (Workload S)) :
    Option (Workload S) :=
  members.findSome? fun member => workloads.find? fun wl => member.uid ∈ wl.owners

/-! ## The first queue -/

/-- The member has neither a node nor a container to show. -/
def Member.notStarted (pod : Member S) : Bool := pod.nodeName = "" ∧ !pod.reportsContainers

/-- The member as the server holds it, when it is still the one listed and waits behind its gate. -/
def standingInQueue (standing : String → Option (Member S)) (pod : Member S) : Option (Member S) :=
  (standing pod.name).filter fun now =>
    now.uid = pod.uid ∧ !now.deleting ∧ now.phase = .pending ∧ now.notStarted ∧ now.gated

/-- The members of a replica that waits for its first admission, as the server holds them. -/
def initialQueuedReplica (standing : String → Option (Member S)) (workloads : List (Workload S))
    (members : List (Member S)) : Option (List (Member S)) :=
  if isWhole (replicaShape members) ∧ members.all Member.notStarted then
    match members.mapM (standingInQueue standing) with
    | none => none
    | some current =>
      match replicaOwningWorkload current workloads with
      | none => none
      | some wl =>
        if wl.uid ≠ "" ∧ !wl.terminating ∧ wl.inInitialQueue
            ∧ current.all fun member => wl.ownsAny [member.uid] then some current
        else none
  else none

/-! ## Which Pods leave an over-counted role -/

/-- The members beyond the seats they can occupy. -/
def surplusCount (seen : List (ℕ × ℕ)) : List (Member S) → ℕ
  | [] => 0
  | pod :: pods =>
    match pod.seat with
    | none => surplusCount seen pods
    | some place =>
      if place ∈ seen then surplusCount seen pods + 1 else surplusCount (place :: seen) pods

/-- The version the singly held seats beside this one agree on, zero when they do not. -/
def peerVersion (kept : List (Member S)) (ordinal index : ℕ) : ℕ :=
  let peers := kept.filter fun pod => pod.ordinal = some ordinal ∧ pod.index ≠ index
    ∧ (kept.filter fun other => other.seat = pod.seat).length = 1
  match peers.map Member.version with
  | [] => 0
  | first :: rest => if rest.all fun version => version = first then first else 0

/-- Which of two occupants of a seat is kept. -/
def keptBefore (want : Option Rendered) (minRenderVersion peer : ℕ) (a b : Member S) : Bool :=
  let currentA := a.matchesCurrency want minRenderVersion
  let currentB := b.matchesCurrency want minRenderVersion
  if currentA ≠ currentB then currentA
  else if currentA ∧ 0 < peer ∧ (a.version = peer) ≠ (b.version = peer) then a.version = peer
  else if currentA ∧ a.version ≠ b.version then b.version < a.version
  else b.name ≤ a.name

/-- Which of two departing Pods leaves first: one without a seat, then the higher ordinal. -/
def shedBefore (a b : Member S) : Bool :=
  if a.ordinal.isSome ≠ b.ordinal.isSome then a.ordinal.isNone
  else if a.ordinalOrFloor ≠ b.ordinalOrFloor then b.ordinalOrFloor < a.ordinalOrFloor
  else b.name ≤ a.name

/-- The Pods of an over-counted role that leave: those without a seat, then all but one of each
seat. -/
def surplusReplicas (kept : List (Member S)) (want : ℕ → List Rendered)
    (surplus minRenderVersion : ℕ) : List (Member S) :=
  let unseated := kept.filter fun pod => pod.ordinal.isNone
  let crowded := (kept.filterMap Member.seat).dedup.flatMap fun place =>
    ((kept.filter fun pod => pod.seat = some place).insertionSort fun a b =>
      keptBefore (want place.1)[place.2]? minRenderVersion (peerVersion kept place.1 place.2) a b).tail
  ((unseated ++ crowded).insertionSort fun a b => shedBefore a b).take surplus

/-! ## Which replica turns over -/

/-- The Pod of the highest ordinal, and of the greatest name on it. -/
def highestOrdinalReplica : List (Member S) → Option (Member S)
  | [] => none
  | first :: rest => some <| rest.foldl (fun choice pod =>
      if choice.ordinalOrFloor < pod.ordinalOrFloor
        ∨ pod.ordinalOrFloor = choice.ordinalOrFloor ∧ choice.name < pod.name then pod else choice) first

theorem mem_of_highestOrdinalReplica {pods : List (Member S)} {pod : Member S}
    (h : highestOrdinalReplica pods = some pod) : pod ∈ pods := by
  cases pods with
  | nil => cases h
  | cons first rest =>
    simp only [highestOrdinalReplica, Option.some.injEq] at h
    subst h
    -- the fold keeps a Pod of the list whichever way each comparison goes
    refine List.foldlRecOn rest _ (motive := fun choice => choice ∈ first :: rest)
      List.mem_cons_self fun choice hchoice pod hpod => ?_
    split
    · exact List.mem_cons_of_mem _ hpod
    · exact hchoice

end GpuStack.Rollout
