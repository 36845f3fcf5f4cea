import GpuStack.Elastic.Operation

/-!
# Elastic/Release — removing captured workers, and seeing them gone

A delete that was sent is not a release.  `elasticDeleteCaptured` removes the workers an operation
captured, under the identities it captured; the three `observeRelease*` predicates say whether the
members are absent, their quota is free and their accelerators are back.

A release that covers the workers of an operation and is seen on all three counts is the release of
each of them (`released_of_observed`).
-/

namespace GpuStack

/-! ## What the API server answers -/

/-- The answer to reading one object. -/
inductive ReadAnswer (α : Type)
  | notFound
  | failed (reason : String)
  | found (a : α)
deriving DecidableEq, Repr

/-- A Pod as it is read back.  `owned` is whether the deployment owns it. -/
structure PodRead where
  uid : String
  phase : String := ""
  owned : Bool := true
  claim : String := ""
  deleting : Bool := false
deriving DecidableEq, Repr

structure WorkloadOwner where
  uid : String
  name : String
  kind : String := "Pod"
  apiVersion : String := "v1"
deriving DecidableEq, Repr

structure WorkloadRead where
  name : String := ""
  uid : String
  owners : List WorkloadOwner := []
  deleting : Bool := false
deriving DecidableEq, Repr

/-- What is read while a release is observed: each member, the Workloads of the namespace, and why a
captured node's ledger does not agree with its accounting, if it does not. -/
structure ReleaseReads where
  pod : String → String → ReadAnswer PodRead
  workloads : Except String (List WorkloadRead)
  node : ReleaseNode → Option String

/-- `%q`, for names without special characters. -/
def inQuotes (text : String) : String := String.singleton '"' ++ text ++ String.singleton '"'

/-! ## Observing a release -/

/-- Why a captured member is not absent, if it is not. -/
def memberPresent (reads : ReleaseReads) (m : ReleaseMember) : Option String :=
  match reads.pod m.space m.name with
  | .notFound => none
  | .failed reason => some ("reading member " ++ inQuotes m.name ++ ": " ++ reason)
  | .found pod => refuseIf (pod.uid = m.podUID) ("member " ++ inQuotes m.name
      ++ " is still present (phase " ++ pod.phase ++ ", deleting " ++ toString pod.deleting ++ ")")

/-- Every captured member is genuinely absent. -/
def observeReleaseTargetsAbsent (reads : ReleaseReads) (record : RetirementRelease) :
    Option String :=
  record.members.findSome? (memberPresent reads)

/-- Why a Workload still claims a captured member, if it does. -/
def workloadClaims (record : RetirementRelease) (workload : WorkloadRead) : Option String :=
  (workload.owners.find? fun owner => owner.uid ∈ record.targetMemberUIDs).map fun owner =>
    if workload.uid = "" then
      "workload " ++ inQuotes workload.name ++ " owns the target's member " ++ inQuotes owner.name
        ++ " but carries no identity, so its release cannot be shown"
    else
      "workload " ++ inQuotes workload.name ++ " still owns the target's member " ++ inQuotes owner.name
        ++ ", so the target's quota is not released"

/-- Every captured Workload is gone, and no current one claims a member. -/
def observeReleaseWorkloadsGone (reads : ReleaseReads) (record : RetirementRelease) :
    Option String :=
  match reads.workloads with
  | .error reason => some ("listing workloads: " ++ reason)
  | .ok workloads =>
    (workloads.findSome? (workloadClaims record)).or <|
      record.workloadUIDs.findSome? fun uid =>
        refuseIf (uid ≠ "" ∧ ∃ workload ∈ workloads, workload.uid = uid)
          ("captured workload " ++ inQuotes uid ++ " is still present")

/-- Every captured node's ledger agrees with its accounting. -/
def observeReleaseAcceleratorsReturned (reads : ReleaseReads) (record : RetirementRelease) :
    Option String :=
  record.nodes.findSome? reads.node

/-- **The release is seen on all three counts**, or why it is not. -/
def observeRelease (reads : ReleaseReads) (record : RetirementRelease) : Option String :=
  (observeReleaseTargetsAbsent reads record).or <|
    (observeReleaseWorkloadsGone reads record).or <|
      observeReleaseAcceleratorsReturned reads record

/-- A captured worker is gone: its Pod is absent, no Workload is its, and the nodes of the release
have their accelerators back. -/
structure WorkerReleased (reads : ReleaseReads) (record : RetirementRelease) (space : String)
    (worker : ElasticCapturedIdentity) : Prop where
  absent : ∀ reason, reads.pod space worker.name ≠ .failed reason
  gone : ∀ pod, reads.pod space worker.name = .found pod → pod.uid ≠ worker.uid
  quota : ∃ workloads, reads.workloads = .ok workloads ∧
    ∀ workload ∈ workloads, ∀ owner ∈ workload.owners, owner.uid ≠ worker.uid
  accelerators : ∀ node ∈ record.nodes, reads.node node = none

/-- The release holds everything the captured workers hold. -/
def RetirementRelease.Covers (record : RetirementRelease) (space : String)
    (workers : List ElasticCapturedIdentity) : Prop :=
  ∀ worker ∈ workers, worker.uid ∈ record.targetMemberUIDs ∧
    ∃ m ∈ record.members, m.podUID = worker.uid ∧ m.name = worker.name ∧ m.space = space

/-- **A release that covers the workers and is seen is the release of each.** -/
theorem released_of_observed {reads : ReleaseReads} {record : RetirementRelease} {space : String}
    {workers : List ElasticCapturedIdentity} (hcovers : record.Covers space workers)
    (h : observeRelease reads record = none) {worker : ElasticCapturedIdentity}
    (hworker : worker ∈ workers) : WorkerReleased reads record space worker := by
  obtain ⟨htarget, m, hm, hmuid, hmname, hmspace⟩ := hcovers worker hworker
  simp only [observeRelease, Option.or_eq_none_iff, observeReleaseTargetsAbsent,
    observeReleaseAcceleratorsReturned, List.findSome?_eq_none_iff] at h
  obtain ⟨habsent, hquota, hnodes⟩ := h
  have hmember := habsent m hm
  rw [memberPresent, hmspace, hmname] at hmember
  refine ⟨fun reason hread => ?_, fun pod hread huid => ?_, ?_, hnodes⟩
  · simp [hread] at hmember
  · simp [hread, hmuid, huid] at hmember
  · unfold observeReleaseWorkloadsGone at hquota
    split at hquota
    · cases hquota
    · rename_i workloads hlisted
      refine ⟨workloads, hlisted, fun workload hw owner howner huid => ?_⟩
      have hnone := List.findSome?_eq_none_iff.mp (Option.or_eq_none_iff.mp hquota).1 workload hw
      rw [workloadClaims, Option.map_eq_none_iff, List.find?_eq_none] at hnone
      exact hnone owner howner (by simpa [huid] using htarget)

/-! ## Removing the captured workers -/

/-- What is to be done about one captured object. -/
inductive DeleteStep
  | skip
  | refuse (reason : String)
  | delete
deriving DecidableEq, Repr

/-- Delete in order what is to be deleted, up to the first refusal or failed delete: what went, and
the error that ended the walk. -/
def deleteEach {α : Type} (judge : α → DeleteStep) (failure : α → Option String) :
    List α → List α × Option String
  | [] => ([], none)
  | a :: l =>
    match judge a with
    | .skip => deleteEach judge failure l
    | .refuse reason => ([], some reason)
    | .delete =>
      match failure a with
      | some reason => ([], some reason)
      | none => (a :: (deleteEach judge failure l).1, (deleteEach judge failure l).2)

/-- What is read, and which deletes fail, while captured workers are removed. -/
structure DeleteReads where
  deployment : Except String (String × ℤ)
  pod : String → ReadAnswer PodRead
  podFailure : ElasticCapturedIdentity → Option String := fun _ => none
  workloads : Except String (List WorkloadRead)
  workloadFailure : WorkloadRead → Option String := fun _ => none

/-- A worker is deleted only under the identity, the ownership and the allocation it was captured
with, and with a current proof that it holds no actor. -/
def workerDelete (op : ElasticOperation) (record : RetirementRelease)
    (actorFree : AList fun _ : String => Bool) (reads : DeleteReads)
    (worker : ElasticCapturedIdentity) : DeleteStep :=
  match reads.pod worker.name with
  | .notFound => .skip
  | .failed reason => .refuse reason
  | .found pod =>
    if actorFree.lookup worker.uid ≠ some true then
      .refuse "captured worker has no current actor-free proof"
    else if pod.uid ≠ worker.uid ∨ ¬ pod.owned ∨ pod.uid = op.master.uid then
      .refuse "captured worker identity changed"
    else if ¬ ∃ m ∈ record.members,
        m.podUID = worker.uid ∧ m.name = worker.name ∧ m.claim = pod.claim then
      .refuse "captured allocation changed before retirement"
    else if pod.deleting then .skip
    else .delete

/-- A captured Workload is deleted only while a captured worker owns it. -/
def workloadDelete (op : ElasticOperation) (record : RetirementRelease) (workload : WorkloadRead) :
    DeleteStep :=
  if workload.uid ∉ record.workloadUIDs then .skip
  else if ¬ ∃ owner ∈ workload.owners, ∃ worker ∈ op.workers, owner.uid = worker.uid ∧
      owner.name = worker.name ∧ owner.kind = "Pod" ∧ owner.apiVersion = "v1" then
    .refuse "captured Workload owner changed"
  else if workload.deleting then .skip
  else .delete

/-- What a removal deleted, and the error that ended it. -/
structure Removal where
  workers : List ElasticCapturedIdentity := []
  workloads : List WorkloadRead := []
  failure : Option String := none
deriving DecidableEq, Repr

/-- The release an operation carries, if it is of the operation's deployment and generation. -/
def ElasticOperation.lineage (op : ElasticOperation) : Option RetirementRelease :=
  op.release.filter fun record => record.modelDeploymentUID = op.deploymentUID
    ∧ record.observedGeneration = op.generation ∧ op.workers ≠ []

/-- **Remove the members a captured operation retired.** -/
def elasticDeleteCaptured (op : ElasticOperation) (actorFree : AList fun _ : String => Bool)
    (reads : DeleteReads) : Removal :=
  match op.lineage with
  | none => { failure := some "captured allocation lineage is missing" }
  | some record =>
    match reads.deployment with
    | .error reason => { failure := some reason }
    | .ok (uid, generation) =>
      if uid ≠ op.deploymentUID ∨ generation ≠ op.generation then
        { failure := some "deployment changed before retirement" }
      else
        let (workers, failure) :=
          deleteEach (workerDelete op record actorFree reads) reads.podFailure op.workers
        match failure with
        | some reason => { workers, failure := some reason }
        | none =>
          match reads.workloads with
          | .error reason => { workers, failure := some reason }
          | .ok listed =>
            let (workloads, failure) :=
              deleteEach (workloadDelete op record) reads.workloadFailure listed
            { workers, workloads, failure }

/-- What a walk deletes is what it judged so, and one without an error skipped the rest. -/
theorem deleteEach_spec {α : Type} (judge : α → DeleteStep) (failure : α → Option String) (l : List α) :
    (∀ a ∈ (deleteEach judge failure l).1, a ∈ l ∧ judge a = .delete) ∧
      ((deleteEach judge failure l).2 = none →
        ∀ a ∈ l, a ∈ (deleteEach judge failure l).1 ∨ judge a = .skip) := by
  induction l with
  | nil => simp [deleteEach]
  | cons b l ih =>
    rw [deleteEach]
    cases hjudge : judge b with
    | skip => grind
    | refuse reason => simp
    | delete => cases hfail : failure b <;> grind

/-- **A removal deletes captured workers only**, none without a proof that it holds no actor, **and a
Workload only after its workers**: every captured worker was deleted, found deleting or gone. -/
theorem elasticDeleteCaptured_order (op : ElasticOperation)
    (actorFree : AList fun _ : String => Bool) (reads : DeleteReads) :
    let removal := elasticDeleteCaptured op actorFree reads
    (∀ worker ∈ removal.workers, worker ∈ op.workers ∧ worker.uid ≠ op.master.uid ∧
      actorFree.lookup worker.uid = some true) ∧
    ∀ workload ∈ removal.workloads,
      (∃ owner ∈ workload.owners, ∃ worker ∈ op.workers, owner.uid = worker.uid) ∧
      ∀ worker ∈ op.workers, worker ∈ removal.workers ∨ reads.pod worker.name = .notFound ∨
        ∃ pod, reads.pod worker.name = .found pod ∧ pod.uid = worker.uid ∧ pod.deleting = true := by
  unfold elasticDeleteCaptured
  split
  · simp
  split
  · simp
  split
  · simp
  next record _ _ _ _ _ _ =>
  obtain ⟨hdeleted, hskipped⟩ := deleteEach_spec (workerDelete op record actorFree reads)
    reads.podFailure op.workers
  have hworkers : ∀ worker ∈ _, worker ∈ op.workers ∧ worker.uid ≠ op.master.uid ∧
      actorFree.lookup worker.uid = some true := fun worker h => by
    obtain ⟨hmem, hjudge⟩ := hdeleted worker h
    unfold workerDelete at hjudge
    grind
  dsimp only
  split
  · exact ⟨hworkers, by simp⟩
  next hend =>
  split
  · exact ⟨hworkers, by simp⟩
  refine ⟨hworkers, fun workload h => ⟨?_, fun worker hworker => ?_⟩⟩
  · have hjudge := ((deleteEach_spec ..).1 workload h).2
    unfold workloadDelete at hjudge
    grind
  · refine (hskipped hend worker hworker).imp_right fun hskip => ?_
    unfold workerDelete at hskip
    grind

end GpuStack
