import GpuStack.Scaler.Solve

/-!
# Scaler/Plan — one planning pass

A pass reads what the scaler has on record and what its target runs, and commits at most one vector:
it retracts a scale-up that stayed unadmitted, restores the vector before a scale-down whose retirement
was aborted, or goes where the constraints and a rebalance lead.  Before it plans, the current vector
must be free of conflict.

What the pass cannot know — signals, histories, admissions, whether a write lands — is what it reads
(`PassReads`).  A pass whose status write is lost leaves the record of before, though its vector stands.
-/

namespace GpuStack

/-! ## The target -/

/-- The step a retirement sits at. -/
inductive RetirementState
  | admitted
  | disqualified
  | withdrawing
  | draining
  | deleting
  | settling
  | aborted
  | completed
deriving DecidableEq, Repr

/-- What the target reports of the retirement it runs. -/
structure RetirementReport where
  state : RetirementState
  roleName : RoleName
  replicaOrdinal : ℤ
deriving DecidableEq

structure DeploymentRole where
  name : RoleName
  replicas : ℤ
  instanceType : String := ""
  hasCommand : Bool := false
  hasElasticEP : Bool := false
deriving DecidableEq

/-- The annotation that says which scaler owns a target, and since which term. -/
structure ScalerBinding where
  scalerUID : String
  term : ℤ
deriving DecidableEq

/-- The annotation a commit leaves on the target. -/
structure Decision where
  scalerUID : String
  decisionID : String
  term : ℤ
  vector : ReplicaVector
  baselineVector : ReplicaVector
  timestamp : ℤ
  targetGeneration : ℤ
deriving DecidableEq

/-- A target; it names each role once. -/
structure Deployment where
  roles : List DeploymentRole
  generation : ℤ := 1
  retirement : Option RetirementReport := none
  binding : Option ScalerBinding := none
  decision : Option Decision := none
  nodup : (roles.map (·.name)).Nodup

namespace Deployment

variable (md : Deployment)

def names : List RoleName := md.roles.map (·.name)

def vector : ReplicaVector := md.roles.map fun role => (role.name, role.replicas)

def role (name : RoleName) : Option DeploymentRole := md.roles.find? (·.name = name)

end Deployment

/-! ## The record -/

structure CommitStatus where
  decisionID : String
  term : ℤ
  vector : ReplicaVector
  baselineVector : ReplicaVector
  timestamp : ℤ
  targetGeneration : ℤ
deriving DecidableEq

/-- A scale-up whose replicas are not all admitted yet. -/
structure PendingCohort where
  decisionID : String
  term : ℤ
  baselineVector : ReplicaVector
  targetVector : ReplicaVector
  startedAt : Option ℤ
deriving DecidableEq

inductive ScaleDownOutcome
  | committed
  | aborted
deriving DecidableEq, Repr

structure ScaleDownStatus where
  role : RoleName
  ordinal : ℤ
  preScaleDownVector : ReplicaVector
  outcome : ScaleDownOutcome
  abortedAt : Option ℤ := none
  cooldownUntil : Option ℤ := none
deriving DecidableEq

inductive RebalanceReason
  | resourceExhausted
  | rebalanceBlocked
  | rebalanceNotApplicable
  | donorRelease
  | receiverAcquire
  | donationAttempted
deriving DecidableEq, Repr

structure RebalanceStatus where
  receiverRole : RoleName
  receiverTargetReplicas : ℤ
  donorRole : Option RoleName := none
  donorTargetReplicas : ℤ := 0
  startedAt : Option ℤ := none
  reason : RebalanceReason
  donationAttempted : Bool := false
  exhaustionEpisodeGeneration : ℤ
deriving DecidableEq

structure RoleStatus where
  name : RoleName
  rawRecommendedReplicas : ℤ
  lastScaleUpTime : Option ℤ := none
deriving DecidableEq

structure ScalerStatus where
  term : ℤ := 0
  observedGeneration : ℤ := 0
  lastCommit : Option CommitStatus := none
  pendingCohort : Option PendingCohort := none
  lastScaleDown : Option ScaleDownStatus := none
  rebalance : Option RebalanceStatus := none
  roles : List RoleStatus := []
deriving DecidableEq

/-- A scaler: what it is asked for and what it has on record. -/
structure Scaler where
  uid : String
  generation : ℤ
  spec : ScalerSpec
  status : ScalerStatus
deriving DecidableEq

/-! ## What a pass reads -/

inductive RecommendationReason
  | waitingForMetrics
  | predictorWarmingUp
  | ratioCoupled
  | other
deriving DecidableEq, Repr

structure Recommendation where
  desiredReplicas : ℤ := 0
  holdScaleDown : Bool := false
  reason : RecommendationReason := .other
deriving DecidableEq, Repr

/-- What is observed of a role and recommended for it. -/
structure RoleSignal where
  kind : RoleKind := .server
  completeCoverage : Bool := true
  recommendation : Recommendation
deriving DecidableEq, Repr

structure PassReads where
  now : ℤ
  active : Bool := true
  /-- The capacity priors resolve, before planning and again before the commit. -/
  priorsResolve : Bool := true
  priorsHold : Bool := true
  /-- The Pods and Workloads of the target are read. -/
  executionRead : Bool := true
  pendingByRole : RoleName → Bool := fun _ => false
  admitted : RoleName → ℤ → Bool := fun _ _ => false
  signal : RoleName → RoleSignal
  algorithmFound : RoleName → Bool := fun _ => true
  history : RoleName → List StabilizationSample := fun _ => []
  /-- Whether the donor's Workload is still there, if its read does not fail. -/
  donorWorkload : Option Bool := some false
  targetWritten : Bool := true
  statusWritten : Bool := true

/-! ## Conflicts -/

/-- Why a vector is outside the policy. -/
def currentVectorConflict (spec : ScalerSpec) (roles : List DeploymentRole) (vector : ReplicaVector) :
    Option ConstraintReason :=
  if spec.roles.length ≠ roles.length then some .boundsConflict
  else if spec.roles.any fun bound =>
      (vector.lookup bound.name).all fun count =>
        count < bound.minimum ∨ bound.maxReplicas < count then some .boundsConflict
  else if ¬ ratiosSatisfied vector.count spec.ratios then some .ratioConflict
  else none

/-- Every role that is bounded or has a ratio is one the scaler may scale. -/
def targetRolesEligible (spec : ScalerSpec) (md : Deployment) : Bool :=
  (spec.roles.map (·.name) ++ spec.ratios.flatMap fun r => [r.numeratorRole, r.denominatorRole]).all
    fun name => (md.role name).any fun role => ¬ role.hasCommand ∧ ¬ role.hasElasticEP

/-! ## Writes -/

/-- Put a count into a vector. -/
def ReplicaVector.set (v : ReplicaVector) (name : RoleName) (count : ℤ) : ReplicaVector :=
  (name, count) :: v.filter (·.1 ≠ name)

def equalReplicaVectors (a b : ReplicaVector) : Bool :=
  a.length = b.length ∧ ∀ e ∈ a, b.count e.1 = e.2

def decisionID (scaler : Scaler) (now : ℤ) : String :=
  s!"{scaler.uid}-{scaler.status.term}-{now}"

/-- The target with the counts of a vector; the API server counts a change as a generation. -/
def writeVector (scaler : Scaler) (md : Deployment) (vector baseline : ReplicaVector) (now : ℤ) :
    Deployment where
  roles := md.roles.map fun role => { role with replicas := (vector.lookup role.name).getD role.replicas }
  generation :=
    if md.roles.all fun role => (vector.lookup role.name).all (· = role.replicas) then md.generation
    else md.generation + 1
  retirement := md.retirement
  binding := md.binding
  decision := some
    { scalerUID := scaler.uid, decisionID := decisionID scaler now, term := scaler.status.term, vector,
      baselineVector := baseline, timestamp := now, targetGeneration := md.generation + 1 }
  nodup := by
    rw [List.map_map]
    exact md.nodup

def commitStatus (scaler : Scaler) (md : Deployment) (vector baseline : ReplicaVector) (now : ℤ) :
    CommitStatus :=
  { decisionID := decisionID scaler now, term := scaler.status.term, vector, baselineVector := baseline,
    timestamp := now, targetGeneration := md.generation + 1 }

/-- The binding on the target is still this scaler's. -/
def ownsBinding (scaler : Scaler) (md : Deployment) : Bool :=
  md.binding = some ⟨scaler.uid, scaler.status.term⟩

/-- The last commit is read back from the target, if its vector is the one in force. -/
def recoverDecision (scaler : Scaler) (md : Deployment) : ScalerStatus :=
  match md.decision with
  | none => scaler.status
  | some decision =>
    if decision.scalerUID ≠ scaler.uid ∨
        (∃ binding ∈ md.binding, binding.scalerUID ≠ scaler.uid ∨ decision.term ≠ binding.term) ∨
        decision.term ≠ scaler.status.term ∨ ¬ equalReplicaVectors md.vector decision.vector ∨
        (∃ commit ∈ scaler.status.lastCommit, commit.term = decision.term ∧
          commit.decisionID = decision.decisionID ∧
          equalReplicaVectors commit.vector decision.vector) then scaler.status
    else
      { scaler.status with
        lastCommit := some
          { decisionID := decision.decisionID, term := decision.term, vector := decision.vector,
            baselineVector := decision.baselineVector, timestamp := decision.timestamp,
            targetGeneration :=
              if decision.targetGeneration = 0 then md.generation else decision.targetGeneration } }

/-! ## A scale-up that is not admitted -/

def pendingTimeout (spec : ScalerSpec) : ℤ :=
  if spec.pendingTimeoutSeconds ≤ 0 then seconds 300 else seconds spec.pendingTimeoutSeconds

/-- The ordinals a cohort adds to a role. -/
def PendingCohort.added (cohort : PendingCohort) (e : RoleName × ℤ) : List ℤ :=
  (List.range (e.2 - cohort.baselineVector.count e.1).toNat).map fun k : ℕ =>
    cohort.baselineVector.count e.1 + k

/-- Something was added, and all of it is admitted. -/
def addedOrdinalsAdmitted (cohort : PendingCohort) (admitted : RoleName → ℤ → Bool) : Bool :=
  (cohort.targetVector.any fun e => cohort.added e ≠ []) &&
    cohort.targetVector.all fun e => (cohort.added e).all (admitted e.1)

/-- What becomes of a pending cohort. -/
inductive CohortVerdict
  | keep
  | clear
  | retract
deriving DecidableEq, Repr

def cohortVerdict (scaler : Scaler) (cohort : PendingCohort) (reads : PassReads) : CohortVerdict :=
  if cohort.term ≠ scaler.status.term then .clear
  else if addedOrdinalsAdmitted cohort reads.admitted then .clear
  else if reads.active ∧ ∃ start ∈ cohort.startedAt, start + pendingTimeout scaler.spec ≤ reads.now then
    .retract
  else .keep

/-- The first role whose growth was not admitted is to receive from another one. -/
def recordRebalanceExhaustion (status : ScalerStatus) (cohort : PendingCohort)
    (admitted : RoleName → ℤ → Bool) : Option RebalanceStatus :=
  match (ConstraintInput.sortNames ((cohort.targetVector.filter fun e =>
    ¬ (cohort.added e).all (admitted e.1)).map (·.1))).head? with
  | none => status.rebalance
  | some receiver => some <|
    match status.rebalance with
    | none =>
      { receiverRole := receiver, receiverTargetReplicas := cohort.targetVector.count receiver,
        reason := .resourceExhausted, exhaustionEpisodeGeneration := 1 }
    | some state =>
      { state with
        exhaustionEpisodeGeneration :=
          if state.receiverRole ≠ receiver then state.exhaustionEpisodeGeneration + 1
          else state.exhaustionEpisodeGeneration
        receiverRole := receiver
        receiverTargetReplicas := cohort.targetVector.count receiver
        reason := .resourceExhausted }

/-- A change of the scaler or the target lets a role receive once more. -/
def resetRebalanceForGenerationChange (scaler : Scaler) (md : Deployment) : Option RebalanceStatus :=
  scaler.status.rebalance.map fun state =>
    if ¬ state.donationAttempted then state
    else if ¬ (0 < scaler.status.observedGeneration ∧
        scaler.status.observedGeneration ≠ scaler.generation) ∧
        ¬ (∃ commit ∈ scaler.status.lastCommit, 0 < commit.targetGeneration ∧
          commit.targetGeneration < md.generation) then state
    else match state.reason with
      | .donorRelease | .receiverAcquire =>
        { state with
          exhaustionEpisodeGeneration := state.exhaustionEpisodeGeneration + 1
          donationAttempted := false }
      | _ =>
        { state with
          exhaustionEpisodeGeneration := state.exhaustionEpisodeGeneration + 1
          donationAttempted := false
          donorRole := none
          donorTargetReplicas := 0
          receiverTargetReplicas := 0
          reason := .resourceExhausted }

/-! ## Moving capacity between roles -/

/-- What is recommended for a role of the target. -/
def recommendationOf (md : Deployment) (reads : PassReads) (name : RoleName) : Recommendation :=
  if name ∈ md.names then (reads.signal name).recommendation else {}

def rebalanceReceiverWantsScaleUp (status : ScalerStatus) (md : Deployment) (reads : PassReads)
    (role : RoleName) : Bool :=
  md.vector.count role < (recommendationOf md reads role).desiredReplicas ∨
    ((recommendationOf md reads role).reason = .waitingForMetrics ∨
      (recommendationOf md reads role).reason = .predictorWarmingUp) ∧
      ∃ s ∈ status.roles, s.name = role ∧ md.vector.count role < s.rawRecommendedReplicas

/-- The fewest replicas a donor keeps. -/
def donorMinimum (spec : ScalerSpec) (name : RoleName) : ℤ :=
  let minimum := (spec.roles.reverse.find? (·.name = name)).elim 0 (·.minReplicas)
  if minimum ≤ 0 then 1 else minimum

/-- The roles that may give, in the order they are asked. -/
def rebalanceDonorCandidates (spec : ScalerSpec) (md : Deployment) (receiver : RoleName)
    (policy : RebalancePolicy) : List DeploymentRole :=
  match policy with
  | .priority => (spec.rebalance.priority.dropWhile (· ≠ receiver)).tail.filterMap md.role
  | _ => md.roles.filter (·.name ≠ receiver)

/-- The first donor that can give one replica gives it, unless a vector on the way is in conflict. -/
def donate (spec : ScalerSpec) (md : Deployment) (reads : PassReads) (policy : RebalancePolicy)
    (state : RebalanceStatus) (receiver : DeploymentRole) :
    List DeploymentRole → ReplicaVector × RebalanceStatus
  | [] => (md.vector, { state with reason := .rebalanceNotApplicable })
  | donor :: donors =>
    if md.vector.count donor.name ≤ donorMinimum spec donor.name ∨ receiver.instanceType = "" ∨
        donor.instanceType = "" ∨ receiver.instanceType ≠ donor.instanceType then
      donate spec md reads policy state receiver donors
    else if policy = .opposing ∧
        md.vector.count donor.name ≤ (recommendationOf md reads donor.name).desiredReplicas then
      donate spec md reads policy state receiver donors
    else if currentVectorConflict spec md.roles
          (md.vector.set donor.name (md.vector.count donor.name - 1)) ≠ none ∨
        currentVectorConflict spec md.roles
          ((md.vector.set donor.name (md.vector.count donor.name - 1)).set receiver.name
            (md.vector.count receiver.name + 1)) ≠ none then
      (md.vector, { state with reason := .rebalanceBlocked })
    else
      (md.vector.set donor.name (md.vector.count donor.name - 1),
        { state with
          donorRole := some donor.name
          donorTargetReplicas := md.vector.count donor.name - 1
          receiverTargetReplicas := md.vector.count receiver.name + 1
          startedAt := some reads.now
          reason := .donorRelease })

/-- What the donor gave goes to the receiver, once the donor's replica is gone. -/
def finishRebalanceDonorRelease (spec : ScalerSpec) (md : Deployment) (reads : PassReads)
    (state : RebalanceStatus) : Option (ReplicaVector × RebalanceStatus) :=
  if md.retirement.isSome ∨ state.donorRole.elim 0 md.vector.count ≠ state.donorTargetReplicas then
    some (md.vector, state)
  else match reads.donorWorkload with
    | none => none
    | some true => some (md.vector, state)
    | some false =>
      if currentVectorConflict spec md.roles
          (md.vector.set state.receiverRole state.receiverTargetReplicas) ≠ none then
        some (md.vector, { state with reason := .rebalanceBlocked })
      else
        some (md.vector.set state.receiverRole state.receiverTargetReplicas,
          { state with donationAttempted := true, reason := .receiverAcquire })

/-- **The vector a rebalance asks for**, in place of the solver's; a failed read gives none. -/
def planRebalance (scaler : Scaler) (md : Deployment) (target : ReplicaVector) (reads : PassReads) :
    Option (ReplicaVector × Option RebalanceStatus) :=
  if ¬ reads.active then some (target, scaler.status.rebalance)
  else match scaler.status.rebalance with
    | none => some (target, none)
    | some state =>
      if ¬ rebalanceReceiverWantsScaleUp scaler.status md reads state.receiverRole then
        if state.reason = .donorRelease ∧ md.retirement.isSome then some (md.vector, some state)
        else some (target, none)
      else if state.reason = .donorRelease then
        (finishRebalanceDonorRelease scaler.spec md reads state).map fun r => (r.1, some r.2)
      else if state.reason = .receiverAcquire then
        if scaler.status.pendingCohort.isSome then some (md.vector, some state)
        else if state.receiverTargetReplicas ≤ md.vector.count state.receiverRole then
          some (target, some { state with donationAttempted := true, reason := .donationAttempted })
        else some (md.vector, some state)
      else if md.retirement.isSome then some (md.vector, some state)
      else if scaler.spec.rebalance.policy = some .disabled then some (target, none)
      else if scaler.spec.rebalance.policy = some .priority ∧ state.donationAttempted ∧
          state.reason = .resourceExhausted then
        some (md.vector, some { state with reason := .rebalanceBlocked })
      else match md.role state.receiverRole with
        | none => some (target, none)
        | some receiver =>
          let policy := scaler.spec.rebalance.policy.getD .opposing
          let r := donate scaler.spec md reads policy state receiver
            (rebalanceDonorCandidates scaler.spec md receiver.name policy)
          some (r.1, some r.2)

/-! ## The pass -/

/-- When a role last grew, as far as is on record. -/
def scalerRoleLastScaleUp (roles : List RoleStatus) (name : RoleName) : Option ℤ :=
  roles.findSome? fun s => if s.name = name then s.lastScaleUpTime else none

/-- What the solver is given. -/
def constraintInput (scaler : Scaler) (md : Deployment) (reads : PassReads) : ConstraintInput where
  spec := scaler.spec
  roles := md.roles.map fun role =>
    let signal := reads.signal role.name
    { name := role.name
      kind := signal.kind
      currentReplicas := role.replicas
      rawRecommendedReplicas := signal.recommendation.desiredReplicas
      holdScaleDown := signal.recommendation.holdScaleDown
      completeCoverage := signal.completeCoverage || signal.recommendation.reason = .ratioCoupled
      hasPendingUnadmittedWorkload :=
        reads.pendingByRole role.name || scaler.status.pendingCohort.isSome
      lastScaleUpTime := scalerRoleLastScaleUp scaler.status.roles role.name
      stabilizationHistory := reads.history role.name }
  hasActiveRetirement := md.retirement.any fun r => r.state ≠ .aborted ∧ r.state ≠ .completed
  inAbortCooldown := scaler.status.lastScaleDown.any fun s => s.cooldownUntil.any (reads.now < ·)
  now := reads.now

/-- Why a vector is committed. -/
inductive CommitKind
  | retraction
  | restore
  | planned
deriving DecidableEq, Repr

/-- A vector that replaced another. -/
structure Commit where
  kind : CommitKind
  before : ReplicaVector
  after : ReplicaVector
deriving DecidableEq

/-- What a pass leaves. -/
structure PassOutcome where
  status : ScalerStatus
  md : Deployment
  commit : Option Commit

/-- The status as it stands after a write that may be lost. -/
def stored (reads : PassReads) (before after : ScalerStatus) : ScalerStatus :=
  if reads.statusWritten then after else before

/-- A cohort that stayed unadmitted is taken back. -/
def retractCohort (before : ScalerStatus) (scaler : Scaler) (md : Deployment) (reads : PassReads)
    (cohort : PendingCohort) : PassOutcome :=
  if ¬ ownsBinding scaler md then ⟨stored reads before scaler.status, md, none⟩
  else if ¬ reads.targetWritten then ⟨before, md, none⟩
  else
    { status := stored reads before
        { scaler.status with
          rebalance := recordRebalanceExhaustion scaler.status cohort reads.admitted
          lastCommit := some (commitStatus scaler md cohort.baselineVector md.vector reads.now)
          pendingCohort := none
          observedGeneration := scaler.generation }
      md := writeVector scaler md cohort.baselineVector md.vector reads.now
      commit := some ⟨.retraction, md.vector, cohort.baselineVector⟩ }

/-- The retirement of the last scale-down was aborted. -/
def restoreDue (scaler : Scaler) (md : Deployment) (reads : PassReads) : Option ScaleDownStatus :=
  scaler.status.lastScaleDown.filter fun record =>
    reads.active && decide (record.outcome = .committed) && md.retirement.any fun retirement =>
      retirement.state = .aborted ∧ record.role = retirement.roleName ∧
        record.ordinal = retirement.replicaOrdinal

/-- The vector before the scale-down is restored, and scaling down rests for a while. -/
def restoreScaleDown (before : ScalerStatus) (scaler : Scaler) (md : Deployment) (reads : PassReads)
    (record : ScaleDownStatus) : PassOutcome :=
  if ¬ ownsBinding scaler md then ⟨stored reads before scaler.status, md, none⟩
  else if ¬ reads.targetWritten then ⟨before, md, none⟩
  else
    { status := stored reads before
        { scaler.status with
          rebalance := scaler.status.rebalance.filter (·.donorRole ≠ some record.role)
          lastScaleDown := some
            { record with
              outcome := .aborted
              abortedAt := some reads.now
              cooldownUntil := some
                (reads.now + seconds scaler.spec.behavior.scaleDown.cooldownAfterAbortSeconds) }
          lastCommit := some (commitStatus scaler md record.preScaleDownVector md.vector reads.now)
          observedGeneration := scaler.generation }
      md := writeVector scaler md record.preScaleDownVector md.vector reads.now
      commit := some ⟨.restore, md.vector, record.preScaleDownVector⟩ }

/-- The first role in order that shrinks, and its new count. -/
def firstScaleDown (before after : ReplicaVector) : Option (RoleName × ℤ) :=
  ((ConstraintInput.sortNames (after.map (·.1))).find? fun role =>
    after.count role < before.count role).map fun role => (role, after.count role)

/-- What is on record after a planned commit. -/
def scaledStatus (scaler : Scaler) (md : Deployment) (vector : ReplicaVector) (now : ℤ) :
    ScalerStatus :=
  { scaler.status with
    lastCommit := some (commitStatus scaler md vector md.vector now)
    roles := scaler.status.roles.map fun s =>
      if vector.any fun e => e.1 = s.name ∧ md.vector.count e.1 < e.2 then
        { s with lastScaleUpTime := some now }
      else s
    pendingCohort :=
      if vector.any fun e => md.vector.count e.1 < e.2 then
        some
          { decisionID := decisionID scaler now, term := scaler.status.term,
            baselineVector := md.vector, targetVector := vector, startedAt := some now }
      else scaler.status.pendingCohort
    lastScaleDown :=
      match firstScaleDown md.vector vector with
      | some (role, ordinal) =>
        some { role, ordinal, preScaleDownVector := md.vector, outcome := .committed }
      | none => scaler.status.lastScaleDown
    observedGeneration := scaler.generation }

/-- Commit a planned vector, if it is another one. -/
def commitPlanned (before : ScalerStatus) (scaler : Scaler) (md : Deployment) (reads : PassReads)
    (vector : ReplicaVector) : PassOutcome :=
  if ¬ (reads.active ∧ ¬ equalReplicaVectors md.vector vector) then
    ⟨stored reads before { scaler.status with observedGeneration := scaler.generation }, md, none⟩
  else if ¬ reads.priorsHold then
    ⟨stored reads before { scaler.status with observedGeneration := scaler.generation }, md, none⟩
  else if ¬ ownsBinding scaler md then
    ⟨stored reads before { scaler.status with observedGeneration := scaler.generation }, md, none⟩
  else if ¬ reads.targetWritten then ⟨before, md, none⟩
  else
    { status := stored reads before (scaledStatus scaler md vector reads.now)
      md := writeVector scaler md vector md.vector reads.now
      commit := some ⟨.planned, md.vector, vector⟩ }

/-- What the roles are reported with. -/
def roleStatuses (scaler : Scaler) (md : Deployment) (reads : PassReads) : List RoleStatus :=
  md.roles.map fun role =>
    { name := role.name
      rawRecommendedReplicas := (reads.signal role.name).recommendation.desiredReplicas
      lastScaleUpTime := scalerRoleLastScaleUp scaler.status.roles role.name }

/-- Constraints, rebalance and commit. -/
def replan (before : ScalerStatus) (scaler : Scaler) (md : Deployment) (reads : PassReads) :
    PassOutcome :=
  if ¬ reads.priorsResolve ∨ ¬ targetRolesEligible scaler.spec md ∨
      currentVectorConflict scaler.spec md.roles md.vector ≠ none then
    ⟨stored reads before { scaler.status with observedGeneration := scaler.generation }, md, none⟩
  else if ¬ md.names.all reads.algorithmFound then ⟨before, md, none⟩
  else
    match planRebalance scaler md
      (tabulate md.names (constraintInput scaler md reads).solveConstraints.replicas) reads with
    | none => ⟨before, md, none⟩
    | some (vector, rebalance) =>
      commitPlanned before
        { scaler with
          status := { scaler.status with rebalance, roles := roleStatuses scaler md reads } }
        md reads vector

/-- Restore what a retirement could not finish, or plan. -/
def afterCohort (before : ScalerStatus) (scaler : Scaler) (md : Deployment) (reads : PassReads) :
    PassOutcome :=
  match restoreDue scaler md reads with
  | some record => restoreScaleDown before scaler md reads record
  | none => replan before scaler md reads

/-- The scaler as a pass first sees it. -/
def beginPass (scaler : Scaler) (md : Deployment) : Scaler :=
  let recovered := { scaler with status := recoverDecision scaler md }
  { recovered with
    status := { recovered.status with rebalance := resetRebalanceForGenerationChange recovered md } }

/-- **One pass of the planner.** -/
def plan (scaler : Scaler) (md : Deployment) (reads : PassReads) : PassOutcome :=
  if ¬ reads.executionRead then ⟨scaler.status, md, none⟩
  else
    match (beginPass scaler md).status.pendingCohort with
    | none => afterCohort scaler.status (beginPass scaler md) md reads
    | some cohort =>
      match cohortVerdict (beginPass scaler md) cohort reads with
      | .keep => afterCohort scaler.status (beginPass scaler md) md reads
      | .clear =>
        afterCohort scaler.status
          { beginPass scaler md with
            status := { (beginPass scaler md).status with pendingCohort := none } } md reads
      | .retract => retractCohort scaler.status (beginPass scaler md) md reads cohort

end GpuStack
