import GpuStack.Lib.Scan
import GpuStack.Retirement.Drain
import GpuStack.Scaler.Plan

/-!
# Retirement/Record — the reservation and the release it owes

A reservation names one replica by the UIDs of its members.  Before it may delete anything it captures
what the members hold into a release record, which is bound to the reservation by every field that
identifies it.  A record that loads belongs to its reservation and holds the facts of each of its
targets (`loadRelease_eq_ok`).
-/

namespace GpuStack.Retirement

/-! ## The reservation -/

/-- **The reservation of one replica**, as the status persists it. -/
structure RetirementStatus where
  roleName : String
  replicaOrdinal : ℕ
  observedGeneration : ℤ := 0
  targetMemberUIDs : List String
  targetWorkloadUID : String := ""
  state : RetirementState := .admitted
  reason : String := ""
  startedAt : ℤ
  deadline : ℤ
  phaseStartedAt : ℤ
  lastConsumedRetryToken : String := ""
deriving DecidableEq

/-- A stored time keeps whole seconds. -/
def wholeSeconds (time : ℤ) : ℤ := time - time % seconds 1

def RetirementStatus.stored (r : RetirementStatus) : RetirementStatus :=
  { r with
    startedAt := wholeSeconds r.startedAt
    deadline := wholeSeconds r.deadline
    phaseStartedAt := wholeSeconds r.phaseStartedAt }

theorem wholeSeconds_wholeSeconds (time : ℤ) : wholeSeconds (wholeSeconds time) = wholeSeconds time := by
  simp only [wholeSeconds, seconds]
  omega

theorem stored_stored (r : RetirementStatus) : r.stored.stored = r.stored := by
  simp only [RetirementStatus.stored, wholeSeconds_wholeSeconds]

/-- The operation a reservation is of: the replica, its members, the start as it is stored, and the
retry. -/
structure Operation where
  roleName : String
  replicaOrdinal : ℕ
  targetMemberUIDs : List String
  startedAt : ℤ
  token : String
deriving DecidableEq

def RetirementStatus.operation (r : RetirementStatus) : Operation :=
  ⟨r.roleName, r.replicaOrdinal, r.targetMemberUIDs, wholeSeconds r.startedAt, r.lastConsumedRetryToken⟩

@[simp] theorem RetirementStatus.operation_stored (r : RetirementStatus) :
    r.stored.operation = r.operation := by
  simp only [operation, stored, wholeSeconds_wholeSeconds]

/-! ## The release record -/

structure ReleaseCard where
  groupID : String
  manufacturer : String
  deviceID : String
  index : ℕ
deriving DecidableEq, Repr

/-- What a member states about its accelerators; only the first two are evidence. -/
inductive AcceleratorClaim
  | none
  | card
  | other (text : String)
deriving DecidableEq, Repr

structure ReleasedMember where
  podUID : String
  space : String := ""
  name : String := ""
  nodeName : String := ""
  acceleratorClaim : AcceleratorClaim := .none
  cards : List ReleaseCard := []
  claim : String := ""
deriving DecidableEq, Repr

structure ReleasedNode where
  nodeName : String
  devicesName : String
  devicesUID : String
  cards : List ReleaseCard
  inventory : String
deriving DecidableEq, Repr

/-- **What one operation captured about its target**, with the identity it is bound to.  The start is
in whole seconds, as it is written. -/
structure ReleaseRecord where
  modelDeploymentUID : String
  observedGeneration : ℤ
  roleName : String
  replicaOrdinal : ℕ
  targetMemberUIDs : List String
  targetWorkloadUID : String
  startedAt : ℤ
  lastConsumedRetryToken : String
  members : List ReleasedMember := []
  workloadUIDs : List String := []
  nodes : List ReleasedNode := []
deriving DecidableEq

/-- Why a record is not of the live reservation, if it is not. -/
def bindRelease (record : ReleaseRecord) (deploymentUID : String) (r : RetirementStatus) :
    Option String :=
  (refuseIf (record.modelDeploymentUID ≠ deploymentUID) "it belongs to another deployment").or <|
  (refuseIf (record.observedGeneration ≠ r.observedGeneration) ("it was captured at generation "
    ++ toString record.observedGeneration ++ ", the reservation is at "
    ++ toString r.observedGeneration)).or <|
  (refuseIf (record.roleName ≠ r.roleName ∨ record.replicaOrdinal ≠ r.replicaOrdinal)
    ("it names " ++ record.roleName ++ " ordinal " ++ toString record.replicaOrdinal
      ++ ", the reservation names " ++ r.roleName ++ " ordinal " ++ toString r.replicaOrdinal)).or <|
  (refuseIf (r.targetMemberUIDs.insertionSort (· ≤ ·) ≠ record.targetMemberUIDs.insertionSort (· ≤ ·))
    ("it was captured for " ++ toString (record.targetMemberUIDs.insertionSort (· ≤ ·))
      ++ ", the reservation targets " ++ toString (r.targetMemberUIDs.insertionSort (· ≤ ·)))).or <|
  (refuseIf (record.targetWorkloadUID ≠ r.targetWorkloadUID) ("it froze workload "
    ++ inQuotes record.targetWorkloadUID ++ ", the reservation freezes "
    ++ inQuotes r.targetWorkloadUID)).or <|
  (refuseIf (record.startedAt ≠ wholeSeconds r.startedAt)
    ("it was captured for an operation started at " ++ toString record.startedAt
      ++ ", this one started at " ++ toString (wholeSeconds r.startedAt))).or <|
  refuseIf (record.lastConsumedRetryToken ≠ r.lastConsumedRetryToken) "it belongs to a different retry"

/-- Why a recorded member, after those passed, is no usable fact. -/
def memberFactRefusal (passed : List ReleasedMember) (m : ReleasedMember) : Option String :=
  (refuseIf (m.podUID = "") ("member " ++ inQuotes m.name ++ " records no identity")).or <|
  (refuseIf (∃ other ∈ passed, other.podUID = m.podUID)
    ("member " ++ inQuotes m.name ++ " is recorded twice")).or <|
  (match m.acceleratorClaim with
    | .none => refuseIf (m.cards ≠ []) ("member " ++ inQuotes m.name
        ++ " claims no accelerator but records " ++ toString m.cards.length ++ " cards")
    | .card => (refuseIf (m.cards = []) ("member " ++ inQuotes m.name
        ++ " claims an accelerator but records no card")).or <|
        refuseIf (m.claim = "") ("member " ++ inQuotes m.name
          ++ " claims an accelerator but records no allocation")
    | .other text => some ("member " ++ inQuotes m.name ++ " states accelerator applicability "
        ++ inQuotes text ++ ", which is not a recorded answer")).or <|
  (Scan.firstError (fun seen (card : ReleaseCard) => refuseIf (card ∈ seen) ("member " ++ inQuotes m.name
    ++ " records card " ++ inQuotes card.deviceID ++ " twice")) m.cards)

/-- Why the cards of a recorded member are not among the node facts, if they are not. -/
def memberNodeRefusal (nodes : List ReleasedNode) (m : ReleasedMember) : Option String :=
  if m.cards = [] then none
  else (refuseIf (m.nodeName = "") ("member " ++ inQuotes m.name ++ " holds cards but records no node")).or <|
    match nodes.find? (·.nodeName = m.nodeName) with
    | none => some ("member " ++ inQuotes m.name ++ " holds cards on node " ++ inQuotes m.nodeName
        ++ ", which has no ledger facts")
    | some node => m.cards.findSome? fun card => refuseIf (card ∉ node.cards)
        ("card " ++ inQuotes card.deviceID ++ " held by member " ++ inQuotes m.name
          ++ " is missing from node " ++ inQuotes m.nodeName ++ "'s facts")

/-- **Why a record does not describe the operation it claims**, if it does not. -/
def validateReleaseFacts (record : ReleaseRecord) : Option String :=
  (refuseIf (record.members = [])
    "it records no member facts, so it cannot say what the target held").or <|
  (Scan.firstError (fun seen uid =>
    (refuseIf (uid = "") "its target set names an empty member UID").or <|
      refuseIf (uid ∈ seen) ("its target set names member " ++ inQuotes uid ++ " twice"))
    record.targetMemberUIDs).or <|
  (Scan.firstError memberFactRefusal record.members).or <|
  (refuseIf (record.members.length ≠ record.targetMemberUIDs.length) ("it holds facts for "
    ++ toString record.members.length ++ " of the " ++ toString record.targetMemberUIDs.length
    ++ " target members")).or <|
  (record.targetMemberUIDs.findSome? fun uid => refuseIf (∀ m ∈ record.members, m.podUID ≠ uid)
    ("it holds no facts for target member " ++ inQuotes uid)).or <|
  (Scan.firstError (fun seen (node : ReleasedNode) =>
    (refuseIf (node.nodeName = "" ∨ node.devicesUID = "")
      "a recorded node carries no name or identity").or <|
      refuseIf (∃ other ∈ seen, other.nodeName = node.nodeName)
        ("node " ++ inQuotes node.nodeName ++ " is recorded twice")) record.nodes).or <|
  (record.members.findSome? (memberNodeRefusal record.nodes)).or <|
  (Scan.firstError (fun seen uid =>
    (refuseIf (uid = "") "it records a workload with no identity").or <|
      refuseIf (uid ∈ seen) ("it records workload " ++ inQuotes uid ++ " twice"))
    record.workloadUIDs).or <|
  (refuseIf (record.targetWorkloadUID ≠ "" ∧ record.targetWorkloadUID ∉ record.workloadUIDs)
    ("it does not record the frozen workload " ++ inQuotes record.targetWorkloadUID
      ++ " it was captured for")).or <|
  record.nodes.findSome? fun node => refuseIf (node.inventory = "")
    ("node " ++ inQuotes node.nodeName ++ " records no inventory to judge its release against")

/-- The annotation that carries the record, on the deployment. -/
inductive ReleaseAnnotation
  | absent
  | unreadable (reason : String)
  | recorded (record : ReleaseRecord)
deriving DecidableEq

/-- The record of this operation, if the object carries one. -/
def loadRelease (recorded : ReleaseAnnotation) (deploymentUID : String) (r : RetirementStatus) :
    Except String ReleaseRecord :=
  match recorded with
  | .absent => .error "the operation carries no captured release record"
  | .unreadable reason => .error ("the captured release record is not readable: " ++ reason)
  | .recorded record =>
    match bindRelease record deploymentUID r with
    | some reason =>
      .error ("the captured release record does not belong to this operation: " ++ reason)
    | none =>
      match validateReleaseFacts record with
      | some reason =>
        .error ("the captured release record cannot say what the target held: " ++ reason)
      | none => .ok record

/-- A record is this operation's, and holds the facts of each of its targets. -/
structure ReleaseRecord.Shows (record : ReleaseRecord) (deploymentUID : String)
    (r : RetirementStatus) : Prop where
  deployment : record.modelDeploymentUID = deploymentUID
  replica : record.roleName = r.roleName ∧ record.replicaOrdinal = r.replicaOrdinal
  targets : r.targetMemberUIDs.Perm record.targetMemberUIDs
  operation : record.startedAt = wholeSeconds r.startedAt ∧
    record.lastConsumedRetryToken = r.lastConsumedRetryToken
  facts : ∀ uid ∈ r.targetMemberUIDs, ∃ m ∈ record.members, m.podUID = uid

/-- **A record that loads shows what the operation holds.** -/
theorem loadRelease_eq_ok {recorded : ReleaseAnnotation} {deploymentUID : String}
    {r : RetirementStatus} {record : ReleaseRecord}
    (h : loadRelease recorded deploymentUID r = .ok record) :
    recorded = .recorded record ∧ record.Shows deploymentUID r := by
  cases recorded with
  | absent => cases h
  | unreadable reason => cases h
  | recorded written =>
    rw [loadRelease] at h
    split at h
    · cases h
    next hbind =>
    split at h
    · cases h
    next hfacts =>
    cases h
    simp only [bindRelease, Option.or_eq_none_iff, refuseIf_eq_none, not_not, not_or] at hbind
    obtain ⟨hdeployment, -, hreplica, hsorted, -, hstarted, htoken⟩ := hbind
    have htargets : r.targetMemberUIDs.Perm record.targetMemberUIDs :=
      (List.perm_insertionSort (· ≤ ·) r.targetMemberUIDs).symm.trans
        (hsorted ▸ List.perm_insertionSort (· ≤ ·) record.targetMemberUIDs)
    refine ⟨rfl, hdeployment, hreplica, htargets, ⟨hstarted, htoken⟩, fun uid huid => ?_⟩
    simp only [validateReleaseFacts, Option.or_eq_none_iff, List.findSome?_eq_none_iff] at hfacts
    obtain ⟨-, -, -, -, hheld, -⟩ := hfacts
    have hfact := refuseIf_eq_none.mp (hheld uid (htargets.mem_iff.mp huid))
    push Not at hfact
    exact hfact

/-! ## The capture -/

/-- A Pod of the namespace as the capture lists it.  `cards` are those of its allocation record. -/
structure CapturedPod where
  uid : String
  space : String := ""
  name : String := ""
  nodeName : String := ""
  requests : Bool := false
  cards : Except String (List ReleaseCard) := .ok []
  claim : String := ""
deriving DecidableEq

/-- What is read while the release is captured: whether there is a reader, the Pods and the Workloads
of the namespace, and of each node with the cards held on it the ledger's identity and inventory, or
why they cannot be taken. -/
structure CaptureReads where
  reader : Bool := true
  pods : Except String (List CapturedPod) := .ok []
  workloads : Except String (List WorkloadRead) := .ok []
  ledger : String → List ReleaseCard → Except String (String × String)

/-- Why a UID of the frozen target set cannot be captured after those seen, if it cannot. -/
def frozenRefusal (seen : List String) (uid : String) : Option String :=
  (refuseIf (uid = "")
    "the frozen target set names an empty member UID, so it cannot be captured").or <|
  refuseIf (uid ∈ seen) ("the frozen target set names member " ++ inQuotes uid
    ++ " twice, so it cannot be captured")

/-- Capture one member of the target set. -/
def captureMember (pods : List CapturedPod) (uid : String) : Except String ReleasedMember :=
  -- Of several Pods with one UID the map of the source keeps the last.
  match pods.reverse.find? (·.uid = uid) with
  | none => .error ("target member " ++ inQuotes uid
      ++ " is already absent, so its allocation cannot be captured")
  | some pod =>
    match pod.cards with
    | .error reason => .error ("read member " ++ inQuotes uid ++ "'s allocation: " ++ reason)
    | .ok cards =>
      if pod.requests ∧ cards = [] then .error ("target member " ++ inQuotes uid
        ++ " requests an accelerator but carries no readable allocation record")
      else if pod.nodeName = "" ∧ cards ≠ [] then .error ("target member " ++ inQuotes uid
        ++ " holds accelerators but is not on a node")
      else .ok {
        podUID := pod.uid, space := pod.space, name := pod.name, nodeName := pod.nodeName
        acceleratorClaim := if pod.requests then .card else .none
        cards, claim := pod.claim }

/-- The Workloads of the target, and the frozen one even where it was not listed. -/
def releaseWorkloadUIDs (workloads : List WorkloadRead) (held : List String) (frozen : String) :
    List String :=
  let uids := (workloads.filter fun w => w.uid ≠ "" ∧ ∃ owner ∈ w.owners, owner.uid ∈ held).map (·.uid)
  (if frozen ≠ "" ∧ frozen ∉ uids then uids ++ [frozen] else uids).insertionSort (· ≤ ·)

/-- The cards the members hold on a node, by group and device. -/
def cardsOn (members : List ReleasedMember) (node : String) : List ReleaseCard :=
  ((members.filter (·.nodeName = node)).flatMap (·.cards)).insertionSort fun a b =>
    a.groupID < b.groupID ∨ (a.groupID = b.groupID ∧ a.deviceID ≤ b.deviceID)

def releaseNodeNames (members : List ReleasedMember) : List String :=
  ((members.filter fun m => m.cards ≠ [] ∧ m.nodeName ≠ "").map (·.nodeName)).dedup.insertionSort (· ≤ ·)

/-- **Capture what the target holds**, while it can still be read. -/
def captureRelease (reads : CaptureReads) (deploymentUID : String) (held : List String)
    (r : RetirementStatus) : Except String ReleaseRecord :=
  if ¬ reads.reader then .error "no API reader is configured, so nothing can be observed"
  else if held = [] then
    .error "the target's members are not all present, so there is nothing to capture"
  else do
    let pods ← reads.pods.mapError ("list the target's pods: " ++ ·)
    match Scan.firstError frozenRefusal r.targetMemberUIDs with
    | some reason => .error reason
    | none =>
      let members ← (r.targetMemberUIDs.insertionSort (· ≤ ·)).mapM (captureMember pods)
      let workloads ← reads.workloads.mapError ("list workloads: " ++ ·)
      let nodes ← (releaseNodeNames members).mapM fun node => do
        let (uid, inventory) ← reads.ledger node (cardsOn members node)
        return ⟨node, node, uid, cardsOn members node, inventory⟩
      return {
        modelDeploymentUID := deploymentUID
        observedGeneration := r.observedGeneration
        roleName := r.roleName
        replicaOrdinal := r.replicaOrdinal
        targetMemberUIDs := r.targetMemberUIDs
        targetWorkloadUID := r.targetWorkloadUID
        startedAt := wholeSeconds r.startedAt
        lastConsumedRetryToken := r.lastConsumedRetryToken
        members
        workloadUIDs := releaseWorkloadUIDs workloads held r.targetWorkloadUID
        nodes }

/-! ## The target is gone -/

/-- What is read after the delete: whether there is a reader, why the pass was cancelled if it was,
the Pods of the namespace, and why the release is not observed on the server once the record loads. -/
structure SettleReads where
  reader : Bool := true
  cancelled : Option String := none
  pods : Except String (List MemberPod) := .ok []
  released : Option String := none
deriving DecidableEq

def phaseText : PodPhase → String
  | .unset => ""
  | .pending => "Pending"
  | .running => "Running"
  | .succeeded => "Succeeded"
  | .failed => "Failed"
  | .unknown => "Unknown"

/-- Why a captured member is not absent from the server, if one is not. -/
def observeTargetsGone (reads : SettleReads) (recorded : ReleaseAnnotation) (deploymentUID : String)
    (r : RetirementStatus) : Option String :=
  (refuseIf (¬ reads.reader)
    "no API reader is configured, so the target's absence cannot be observed").or <|
  (reads.cancelled.map ("the observation was cancelled: " ++ ·)).or <|
  match loadRelease recorded deploymentUID r with
  | .error reason => some ("the target's absence cannot be observed: " ++ reason)
  | .ok record =>
    match reads.pods with
    | .error reason => some ("listing the target's pods: " ++ reason)
    | .ok pods => record.members.findSome? fun m =>
        (pods.reverse.find? (·.uid = m.podUID)).map fun pod => "member " ++ inQuotes m.name
          ++ " is still present (phase " ++ phaseText pod.phase ++ ", deleting " ++ toString pod.deleting
          ++ ")"

/-- Why the release has not been observed, if it has not. -/
def observeReleased (reads : SettleReads) (recorded : ReleaseAnnotation) (deploymentUID : String)
    (r : RetirementStatus) : Option String :=
  (refuseIf (¬ reads.reader)
    "no API reader is configured, so the release cannot be observed").or <|
  (reads.cancelled.map ("the observation was cancelled: " ++ ·)).or <|
  match loadRelease recorded deploymentUID r with
  | .error reason => some ("the release has not been observed: " ++ reason)
  | .ok _ => reads.released

end GpuStack.Retirement
