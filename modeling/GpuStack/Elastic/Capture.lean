import GpuStack.Elastic.Release
import GpuStack.Lib.Scan

/-!
# Elastic/Capture — what the workers to be removed hold

A narrowing captures the release it will owe while its workers can still be read.  The capture takes
exactly the members it is given or refuses, so a release that was captured covers every one of them
(`covers_of_capture`).
-/

namespace GpuStack

/-- A live Pod of the deployment.  `ordinal` is its seat, if it has one; seat zero is the master's. -/
structure RuntimePod where
  name : String
  uid : String
  head : Bool := false
  ordinal : Option ℕ := none
  running : Bool := true
  ip : String := ""
  claim : String := ""
deriving DecidableEq, Repr

def RuntimePod.identity (pod : RuntimePod) : ElasticCapturedIdentity := ⟨pod.name, pod.uid⟩

/-- A member as it is read back for the capture.  `cards` is why what it records is no complete group of
whole cards of its main container, if it is not. -/
structure MemberRead where
  uid : String
  claim : String := ""
  cards : Option String := none
  nodeName : String := ""
deriving DecidableEq, Repr

/-- What is read while a release is captured: each member, the Workloads, why the one Workload of a
member is no admission of it, and each node's ledger. -/
structure CaptureReads where
  member : String → ReadAnswer MemberRead
  workloads : Except String (List WorkloadRead)
  admission : WorkloadRead → Option String
  ledger : String → Except String ReleaseNode

/-- Why a supplied Pod is no member to capture after those seen, if it is not. -/
def suppliedRefusal (seen : List String) (pod : RuntimePod) : Option String :=
  (refuseIf (pod.uid = "")
    ("member " ++ inQuotes pod.name ++ " carries no identity, so it cannot be captured")).or <|
  (refuseIf (pod.uid ∈ seen)
    ("member " ++ inQuotes pod.name ++ " is supplied twice, so it cannot be captured")).or <|
  (refuseIf (pod.head ∨ pod.ordinal = none)
    ("member " ++ inQuotes pod.name ++ " is not a fully owned seated member")).or <|
  refuseIf (pod.ordinal = some 0)
    ("member " ++ inQuotes pod.name ++ " is the master, and the master is never retirable")

/-- Why what was read back is not the supplied Pod with its allocation, if it is not. -/
def actualRefusal (pod : RuntimePod) (actual : MemberRead) : Option String :=
  (refuseIf (actual.uid ≠ pod.uid) ("pod " ++ inQuotes pod.name ++ " carries uid " ++ actual.uid
    ++ ", the member was supplied as " ++ pod.uid ++ " (same-name replacement)")).or <|
  (refuseIf (actual.claim ≠ pod.claim) ("member " ++ inQuotes pod.name
    ++ " now records a different allocation than the supplied member did")).or <|
  (actual.cards.map fun reason => "member " ++ inQuotes pod.name
    ++ " holds no whole accelerator to capture: " ++ reason).or <|
  refuseIf (actual.nodeName = "")
    ("member " ++ inQuotes pod.name ++ " holds accelerators but is not on a node")

/-- Capture one member, after those seen. -/
def captureMember (reads : CaptureReads) (space : String) (seen : List String) (pod : RuntimePod) :
    Except String (ReleaseMember × String) :=
  match suppliedRefusal seen pod with
  | some reason => .error reason
  | none =>
    match reads.member pod.name with
    | .notFound => .error ("member " ++ inQuotes pod.name
        ++ " is already absent, so its allocation cannot be captured")
    | .failed reason => .error ("read member " ++ inQuotes pod.name ++ ": " ++ reason)
    | .found actual =>
      match actualRefusal pod actual with
      | some reason => .error reason
      | none => .ok (⟨actual.uid, space, pod.name, actual.claim⟩, actual.nodeName)

def captureMembers (reads : CaptureReads) (space : String) :
    List String → List RuntimePod → Except String (List (ReleaseMember × String))
  | _, [] => .ok []
  | seen, pod :: pods => do
    let member ← captureMember reads space seen pod
    let members ← captureMembers reads space (seen ++ [pod.uid]) pods
    return member :: members

/-- A Workload names a member as an owner. -/
def claimsMember (m : ReleaseMember) (workload : WorkloadRead) : Prop :=
  ∃ owner ∈ workload.owners, owner.kind = "Pod" ∧ owner.apiVersion = "v1" ∧ owner.uid = m.podUID
    ∧ owner.name = m.name

instance (m : ReleaseMember) : DecidablePred (claimsMember m) :=
  fun _ => inferInstanceAs (Decidable (∃ _ ∈ _, _))

/-- The UID of the one Workload a member is admitted by. -/
def captureWorkload (reads : CaptureReads) (workloads : List WorkloadRead) (m : ReleaseMember) :
    Except String String :=
  match workloads.filter (claimsMember m) with
  | [] => .error ("member " ++ inQuotes m.name
      ++ " composes no workload, so its quota cannot be captured")
  | [workload] =>
    if (workload.owners.filter fun owner => owner.kind = "Pod" ∧ owner.apiVersion = "v1").length ≠ 1
    then .error ("member " ++ inQuotes m.name ++ "'s workload is not capturable: "
      ++ "it is not a group of one, so it is not this member's admission")
    else if workload.uid = "" then .error ("member " ++ inQuotes m.name
      ++ "'s workload is not capturable: "
      ++ "it carries no identity, so its admission cannot be released later")
    else match reads.admission workload with
      | some reason => .error ("member " ++ inQuotes m.name ++ "'s workload is not capturable: "
          ++ reason)
      | none => .ok workload.uid
  | first :: second :: _ => .error ("member " ++ inQuotes m.name
      ++ "'s workload cannot be decided: workloads " ++ inQuotes first.name ++ " and "
      ++ inQuotes second.name ++ " both claim member " ++ inQuotes m.name)

/-- **Capture what the supplied members hold**, for a deployment at a generation. -/
def captureModelDeploymentElasticRelease (reads : CaptureReads) (space deploymentUID : String)
    (generation : ℤ) (pods : List RuntimePod) : Except String RetirementRelease :=
  if deploymentUID = "" then
    .error "the deployment carries no identity, so the record cannot be bound to it"
  else if pods = [] then .error "no retirable member was supplied, so there is nothing to capture"
  else do
    let captured ← captureMembers reads space [] pods
    let members := (captured.map (·.1)).insertionSort fun a b => a.podUID ≤ b.podUID
    let workloads ← reads.workloads
    let workloadUIDs ← members.mapM (captureWorkload reads workloads)
    let nodes ← ((captured.map (·.2)).dedup.insertionSort (· ≤ ·)).mapM reads.ledger
    return {
      modelDeploymentUID := deploymentUID
      observedGeneration := generation
      targetMemberUIDs := (captured.map (·.1.podUID)).insertionSort (· ≤ ·)
      members
      workloadUIDs := workloadUIDs.insertionSort (· ≤ ·)
      nodes }

section Covers

variable {reads : CaptureReads} {space : String} {pods : List RuntimePod}

/-- A captured member is the one supplied. -/
theorem captureMember_eq_ok {seen : List String} {pod : RuntimePod} {m : ReleaseMember × String}
    (h : captureMember reads space seen pod = .ok m) :
    m.1.podUID = pod.uid ∧ m.1.name = pod.name ∧ m.1.space = space := by
  unfold captureMember at h
  split at h
  · cases h
  split at h
  · cases h
  · cases h
  split at h
  · cases h
  rename_i hactual
  obtain rfl := Except.ok.inj h
  simp only [actualRefusal, Option.or_eq_none_iff, refuseIf_eq_none, not_not] at hactual
  exact ⟨hactual.1, rfl, rfl⟩

theorem exists_captured {seen : List String} {captured : List (ReleaseMember × String)}
    (h : captureMembers reads space seen pods = .ok captured) {pod : RuntimePod}
    (hpod : pod ∈ pods) :
    ∃ m ∈ captured, m.1.podUID = pod.uid ∧ m.1.name = pod.name ∧ m.1.space = space := by
  induction pods generalizing seen captured with
  | nil => exact nomatch hpod
  | cons first pods ih =>
    obtain ⟨m, hm, h⟩ := Scan.bind_eq_ok.mp h
    obtain ⟨ms, hms, h⟩ := Scan.bind_eq_ok.mp h
    obtain rfl := Except.ok.inj h
    obtain rfl | hpod := List.mem_cons.mp hpod
    · exact ⟨m, .head _, captureMember_eq_ok hm⟩
    · obtain ⟨m', hm', hsame⟩ := ih hms hpod
      exact ⟨m', .tail _ hm', hsame⟩

/-- **A captured release covers every member it was captured for.** -/
theorem covers_of_capture {deploymentUID : String} {generation : ℤ} {record : RetirementRelease}
    (h : captureModelDeploymentElasticRelease reads space deploymentUID generation pods
      = .ok record) : record.Covers space (pods.map (·.identity)) := by
  unfold captureModelDeploymentElasticRelease at h
  split at h
  · cases h
  split at h
  · cases h
  obtain ⟨captured, hcaptured, h⟩ := Scan.bind_eq_ok.mp h
  obtain ⟨_, -, h⟩ := Scan.bind_eq_ok.mp h
  obtain ⟨_, -, h⟩ := Scan.bind_eq_ok.mp h
  obtain ⟨_, -, h⟩ := Scan.bind_eq_ok.mp h
  obtain rfl := Except.ok.inj h
  intro worker hworker
  obtain ⟨pod, hpod, rfl⟩ := List.mem_map.mp hworker
  obtain ⟨m, hm, huid, hname, hspace⟩ := exists_captured hcaptured hpod
  refine ⟨?_, m.1, ?_, huid, hname, hspace⟩
  · exact (List.mem_insertionSort _).mpr (List.mem_map.mpr ⟨m, hm, huid⟩)
  · exact (List.mem_insertionSort _).mpr (List.mem_map_of_mem hm)

end Covers

end GpuStack
