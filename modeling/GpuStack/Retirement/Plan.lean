import GpuStack.Retirement.Record

/-!
# Retirement/Plan — one pass of the retirement protocol

The states of a reservation are levels: a pass enters at the persisted state and stays, advances by one
or aborts.  `planRetirement` is that decision, `pass` a whole pass of it: plan, persist, delete.  What
the target's deployment, its Pods, routers, engines and the API server answer is read in `PassReads`.

What a pass can do to a reservation is said once, in `planned_plan`.
-/

namespace GpuStack.Retirement

/-! ## What a pass reads -/

structure Leg where
  plannedRetirement : Bool := false
  verified : Bool := true
deriving DecidableEq, Repr

structure Qualification where
  role : String
  ordinal : ℕ
  legs : List Leg := []
deriving DecidableEq, Repr

/-- A removal another path of the pass hands over: the replica, the members to bind, the Workload found
for them, and whether the write of the reservation lands. -/
structure RemovalIntent where
  role : String
  ordinal : ℕ
  members : List MemberPod
  workloadUID : Except String String := .ok ""
  lands : Bool := true
deriving DecidableEq

/-- **What one pass reads.**  `later` is the clock as the drain check reads it again; a write lands or
it does not, and a delete of a Pod fails or not, by its UID. -/
structure PassReads where
  now : ℤ
  later : ℤ := now
  generation : ℤ := 0
  engineName : String := ""
  roles : List (String × ℤ) := []
  directive : Option String := none
  pods : List MemberPod := []
  qualifications : List Qualification := []
  labelFails : String → Bool := fun _ => false
  retryLands : Bool := true
  residual : ResidualReads := {}
  drain : DrainReads
  capture : CaptureReads
  releaseWrite : Except String Unit := .ok ()
  cancelled : Option String := none
  settle : SettleReads := {}
  statusLands : Bool := true
  departing : Option RemovalIntent := none
  deleteFails : String → Bool := fun _ => false
  workloads : Except String (List WorkloadRead) := .ok []
  surplus : Option RemovalIntent := none

/-! ## The plan -/

/-- What one pass learned about the reservation in flight. -/
structure RetirementPlan where
  reservation : Option RetirementStatus := none
  members : List MemberPod := []
  hold : Bool := false
  deletesAllowed : Bool := true
  clear : Bool := false
  inFlight : Bool := false
  deletes : List MemberPod := []
deriving DecidableEq

def withdrawalBudget : ℤ := seconds 30

def drainBudget : ℤ := seconds 240

def settleBudget : ℤ := seconds 30

def overallBudget : ℤ := seconds 300

/-- The members the reservation claims, of those a pass lists: by UID, and not on their way out. -/
def retirementTarget (r : RetirementStatus) (pods : List MemberPod) : List MemberPod :=
  pods.filter fun pod => ¬ pod.deleting ∧ pod.uid ∈ r.targetMemberUIDs

def uids (members : List MemberPod) : List String := members.map (·.uid)

/-- The phase has run out of time: at its own budget or at the deadline, whichever is earlier. -/
def budgetSpent (r : RetirementStatus) (budget now : ℤ) : Bool :=
  (if r.deadline < r.phaseStartedAt + budget then r.deadline else r.phaseStartedAt + budget) ≤ now

def targetTerminal (members : List MemberPod) : Bool :=
  members.all fun pod => pod.phase = .failed ∨ pod.phase = .succeeded

def replicaIsEncode (members : List MemberPod) : Bool :=
  members ≠ [] ∧ members.all (·.roleKind = "encode")

/-- The operation holds its target, in the given state of the reservation. -/
def holding (members : List MemberPod) (r : RetirementStatus) : RetirementPlan :=
  { reservation := some r, members, hold := true, inFlight := true }

/-- The operation stays where it is, for a reason. -/
def stay (members : List MemberPod) (r : RetirementStatus) (reason : String) : RetirementPlan :=
  holding members { r with reason }

def abortRetirement (members : List MemberPod) (r : RetirementStatus) (now : ℤ) (reason : String) :
    RetirementPlan :=
  { holding members { r with
      state := .aborted
      reason := reason ++ "; members, workload and capacity are retained"
      deadline := now } with inFlight := false }

def advanceToDisqualified (reads : PassReads) (members : List MemberPod) (r : RetirementStatus) :
    RetirementPlan :=
  if budgetSpent r withdrawalBudget reads.now then
    abortRetirement members r reads.now
      "the withdrawal budget was exhausted before the target left selection"
  else if members.any (·.eligible) then stay members r "the target is still in endpoint selection"
  else holding members { r with
    state := .disqualified
    reason := "the target has left endpoint selection" }

def advanceToWithdrawing (reads : PassReads) (members : List MemberPod) (r : RetirementStatus) :
    RetirementPlan :=
  if budgetSpent r withdrawalBudget reads.now then
    abortRetirement members r reads.now
      "the withdrawal budget was exhausted before the target stopped serving"
  else match observeResidual reads.residual (uids members) with
    | some residual => stay members r residual
    | none => holding members { r with
        state := .withdrawing
        reason := "the target is out of selection and nothing serves it" }

def advanceToDraining (reads : PassReads) (members : List MemberPod) (r : RetirementStatus) :
    RetirementPlan :=
  -- The phase begins before its budget is asked about, so only the deadline can end it here.
  let begun := { r with phaseStartedAt := reads.now }
  if budgetSpent begun drainBudget reads.now then
    abortRetirement members begun reads.now
      "the drain budget was exhausted before the target left deletion"
  else holding members { begun with
    state := .draining
    reason := "reading the target's in-flight queues with every member retained" }

def encodeWithdrawn : String := "the target runs the Encode role, which exports no in-flight queue this "
  ++ "protocol can read; it is withdrawn from discovery and leaving on the window"

/-- A release capture that refuses deletes nothing.  An encoder, whose window is already spent, ends
here at the deadline. -/
def holdBeforeDelete (reads : PassReads) (members : List MemberPod) (r : RetirementStatus)
    (reason : String) : RetirementPlan :=
  if replicaIsEncode members ∧ r.deadline ≤ reads.now then
    abortRetirement members r reads.now reason
  else { stay members r reason with deletesAllowed := false }

/-- Why the target may not be deleted yet; an encoder waits its window out and asks no engine. -/
def drainRefusal (reads : PassReads) (members : List MemberPod) (r : RetirementStatus) : Option String :=
  if replicaIsEncode members then
    refuseIf (¬ budgetSpent r drainBudget reads.now) encodeWithdrawn
  else observeDrained reads.drain (retirementEngine reads.engineName) members r.phaseStartedAt
    reads.later

/-- The release is captured and persisted before the delete is authorized.  With the plan comes the
annotation as the pass leaves it. -/
def advanceToDeleting (deploymentUID : String) (reads : PassReads) (recorded : ReleaseAnnotation)
    (members : List MemberPod) (r : RetirementStatus) : RetirementPlan × ReleaseAnnotation :=
  if ¬ replicaIsEncode members ∧ budgetSpent r drainBudget reads.now then
    (abortRetirement members r reads.now
      "the drain budget was exhausted before the target's queues reached zero", recorded)
  else match drainRefusal reads members r with
    | some reason => (stay members r reason, recorded)
    | none =>
      match captureRelease reads.capture deploymentUID (uids members) r with
      | .error reason => (holdBeforeDelete reads members r
          ("the target's release cannot be recorded, so nothing is deleted: " ++ reason), recorded)
      | .ok record =>
        match reads.releaseWrite with
        | .error reason => (holdBeforeDelete reads members r
            ("the target's release could not be written, so nothing is deleted: " ++ reason), recorded)
        | .ok () =>
          match loadRelease (.recorded record) deploymentUID r with
          | .error reason => (holdBeforeDelete reads members r
              ("the target's release was not recorded for this operation, so nothing is deleted: "
                ++ reason), .recorded record)
          | .ok _ => ({ holding members { r with
                state := .deleting
                phaseStartedAt := reads.now
                reason :=
                  if replicaIsEncode members then
                    "the target runs the Encode role and its withdrawal window is spent; "
                      ++ "deleting every member together"
                  else "the target's queues are empty; deleting every member together" } with
              deletes := members }, .recorded record)

def advanceToSettling (deploymentUID : String) (reads : PassReads) (recorded : ReleaseAnnotation)
    (members : List MemberPod) (r : RetirementStatus) : RetirementPlan :=
  match observeTargetsGone reads.settle recorded deploymentUID r with
  | some reason => { stay members r reason with deletes := members }
  | none => holding members { r with
      state := .settling
      phaseStartedAt := reads.now
      reason := "the target has left; observing the accelerator and quota release" }

def advanceToCompleted (deploymentUID : String) (reads : PassReads) (recorded : ReleaseAnnotation)
    (members : List MemberPod) (r : RetirementStatus) : RetirementPlan :=
  match observeReleased reads.settle recorded deploymentUID r with
  | some reason => stay members r <|
      if budgetSpent r settleBudget reads.now then
        "the settle budget was exhausted and the release has not been observed: " ++ reason
      else reason
  | none => { holding members { r with
      state := .completed
      reason := "the target is deleted and its accelerator and quota release were observed" } with
    clear := true, inFlight := false, hold := false }

/-- The states from `deleting` on are about the target being absent. -/
def advancePastDeletion (deploymentUID : String) (reads : PassReads) (recorded : ReleaseAnnotation)
    (members : List MemberPod) (r : RetirementStatus) : RetirementPlan :=
  match reads.cancelled with
  | some reason => stay members r ("the pass was cancelled, so the release is not observed: " ++ reason)
  | none =>
    if r.state = .deleting then advanceToSettling deploymentUID reads recorded members r
    else advanceToCompleted deploymentUID reads recorded members r

/-! ## Adoption and retry -/

inductive Adoption
  | refused
  | adopted
  | failed
deriving DecidableEq, Repr

/-- The replica qualifies on every ground but the reservation that names it. -/
def adoptable (q : Qualification) : Bool :=
  q.legs.all fun leg => leg.plannedRetirement || leg.verified

/-- The live Pods seated on a replica. -/
def replicaMembers (pods : List MemberPod) (role : String) (ordinal : ℕ) : List MemberPod :=
  pods.filter fun pod => ¬ pod.deleting ∧ pod.role = role ∧ podOrdinal pod = some ordinal

/-- **A re-declared, healthy, unchanged target is adopted**, not retired.  Its members get their
eligibility back first; a label that cannot be written leaves the operation where it is. -/
def adoptsRetirement (reads : PassReads) (members : List MemberPod) (r : RetirementStatus) : Adoption :=
  if members = [] ∨ (r.state ≠ .aborted ∧ reads.generation < r.observedGeneration) then .refused
  else match reads.roles.find? (·.1 = r.roleName) with
    | none => .refused
    | some role =>
      if role.2 ≤ r.replicaOrdinal then .refused
      else if (uids members).dedup.length ≠ r.targetMemberUIDs.length
          ∨ members.length ≠ r.targetMemberUIDs.length then .refused
      else if (replicaMembers reads.pods r.roleName r.replicaOrdinal).length
          ≠ r.targetMemberUIDs.length then .refused
      else match reads.qualifications.find? fun q =>
          q.role = r.roleName ∧ q.ordinal = r.replicaOrdinal with
        | none => .refused
        | some q =>
          if ¬ adoptable q then .refused
          else if members.any fun pod => !pod.eligible && reads.labelFails pod.uid then .failed
          else .adopted

/-- The three parts of a retry directive: role, ordinal and token. -/
def parseRetry (directive : String) : Option (String × ℕ × String) :=
  match directive.toList.splitOn ':' with
  | [role, ordinal, token] =>
    match index (String.ofList ordinal) with
    | none => none
    | some n => if role = [] ∨ token = [] then none else some (String.ofList role, n, String.ofList token)
  | _ => none

/-- The directive a pass finds is a new one for this reservation, which is aborted. -/
def newDirective (reads : PassReads) (r : RetirementStatus) : Option String :=
  match reads.directive.bind parseRetry with
  | none => none
  | some (role, ordinal, token) =>
    if role ≠ r.roleName ∨ ordinal ≠ r.replicaOrdinal then none
    -- A token already consumed is a replay, whatever the state.
    else if r.lastConsumedRetryToken = token then none
    else if r.state ≠ .aborted then none
    else some token

/-- The reservation a consumed directive starts over with. -/
def retried (r : RetirementStatus) (token : String) (now : ℤ) : RetirementStatus :=
  { r with
    lastConsumedRetryToken := token
    state := .admitted
    reason := "retry directive accepted"
    startedAt := now
    deadline := now + overallBudget
    phaseStartedAt := now }

/-- **Consume a retry directive**: the reservation as it was persisted with it, if it was. -/
def consumeRetry (reads : PassReads) (r : RetirementStatus) : Option RetirementStatus :=
  (newDirective reads r).bind fun token =>
    if reads.retryLands then some (retried r token reads.now) else none

/-! ## One pass -/

/-- What the API server keeps of the protocol between passes. -/
structure Server where
  reservation : Option RetirementStatus := none
  recorded : ReleaseAnnotation := .absent
deriving DecidableEq

/-- The step a pass makes from a state before the delete. -/
def advance (deploymentUID : String) (reads : PassReads) (recorded : ReleaseAnnotation)
    (members : List MemberPod) (r : RetirementStatus) : RetirementPlan × ReleaseAnnotation :=
  match r.state with
  | .admitted => (advanceToDisqualified reads members r, recorded)
  | .disqualified => (advanceToWithdrawing reads members r, recorded)
  | .withdrawing => (advanceToDraining reads members r, recorded)
  | .draining => advanceToDeleting deploymentUID reads recorded members r
  | _ => ({ holding members r with inFlight := false }, recorded)

/-- **Evaluate the reservation as a level.**  The result is the plan and what the server holds once
the plan is made, before the plan itself is persisted. -/
def planRetirement (deploymentUID : String) (s : Server) (reads : PassReads) : RetirementPlan × Server :=
  match s.reservation with
  | none => ({}, s)
  | some r =>
    let members := retirementTarget r reads.pods
    if r.state = .completed then ({ reservation := some r, members, clear := true }, s)
    else if r.state = .deleting ∨ r.state = .settling then
      (advancePastDeletion deploymentUID reads s.recorded members r, s)
    else if members = [] ∨ targetTerminal members then
      ({ reservation := some { r with
          state := .aborted
          reason := "the target was terminated outside this operator; nothing could be retained" }
         members }, s)
    else match adoptsRetirement reads members r with
      | .adopted => ({ reservation := some r, members, clear := true }, s)
      | .failed => (holding members r, s)
      | .refused =>
        match consumeRetry reads r with
        | some r' => ({ holding members r' with deletesAllowed := false },
            { s with reservation := some r'.stored })
        | none =>
          let (plan, recorded) := advance deploymentUID reads s.recorded members r
          (plan, { s with recorded })

/-- What the plan asks the server to hold. -/
def RetirementPlan.next (plan : RetirementPlan) : Option RetirementStatus :=
  if plan.clear then none else plan.reservation

/-- Persist the plan; nothing is written where nothing changed.  The result is the server after a
write that landed. -/
def persistRetirement (reads : PassReads) (plan : RetirementPlan) (s : Server) : Option Server :=
  if s.reservation = plan.next then some s
  else if reads.statusLands then some { s with reservation := plan.next.map RetirementStatus.stored }
  else none

/-- Admit a removal another path hands over; the server is as it was where it is refused. -/
def admitRetirement (reads : PassReads) (intent : Option RemovalIntent) (plan : RetirementPlan)
    (s : Server) : RetirementPlan × Server :=
  match intent with
  | none => (plan, s)
  | some intent =>
    if plan.inFlight ∨ plan.hold then (plan, s)
    else match intent.workloadUID with
      | .error _ => (plan, s)
      | .ok workloadUID =>
        if "" ∈ uids intent.members ∨ ¬ intent.lands then (plan, s)
        else
          let r : RetirementStatus := {
            roleName := intent.role
            replicaOrdinal := intent.ordinal
            observedGeneration := reads.generation
            targetMemberUIDs := (uids intent.members).insertionSort (· ≤ ·)
            targetWorkloadUID := workloadUID
            state := .admitted
            reason := "admitted for a replica this pass no longer declares"
            startedAt := reads.now
            deadline := reads.now + overallBudget
            phaseStartedAt := reads.now }
          ({ plan with
              reservation := some r, hold := true, inFlight := true, members := intent.members },
            { s with reservation := some r.stored })

/-- The deletes a commit sends: in order, and none after one that fails. -/
def issued (fails : String → Bool) : List MemberPod → List MemberPod
  | [] => []
  | pod :: pods => if fails pod.uid then [pod] else pod :: issued fails pods

def ownsAny (workload : WorkloadRead) (pods : List String) : Bool :=
  workload.owners.any fun owner => owner.kind = "Pod" ∧ owner.apiVersion = "v1" ∧ owner.uid ∈ pods

/-- The Workloads deleted with the members: those of the target that own nothing outside it. -/
def retiredWorkloads (plan : RetirementPlan) (pods : List MemberPod) (workloads : List WorkloadRead) :
    List WorkloadRead :=
  workloads.filter fun workload => ownsAny workload (uids plan.deletes) ∧
    ¬ ownsAny workload ((uids pods).filter (· ∉ uids plan.deletes))

/-- What one pass did: what the server held when it began, once the plan was persisted, and at its
end, and the Pods and Workloads it sent deletes for. -/
structure Entry where
  reads : PassReads
  before : Server
  persisted : Server
  after : Server
  deleted : List MemberPod := []
  workloadsDeleted : List WorkloadRead := []

/-- Issue the operation's delete, the members first and then the Workloads that hold them, and let the
rest of the pass hand a removal over; a delete that fails ends the pass. -/
def commitRetirement (reads : PassReads) (before persisted : Server) (plan : RetirementPlan)
    (s : Server) : Entry :=
  let rest := (admitRetirement reads reads.surplus plan s).2
  let deleted := issued reads.deleteFails plan.deletes
  if ¬ plan.deletesAllowed ∨ plan.deletes = [] then { reads, before, persisted, after := rest }
  else if deleted.any (reads.deleteFails ·.uid) then { reads, before, persisted, after := s, deleted }
  else match reads.workloads with
    | .error _ => { reads, before, persisted, after := s, deleted }
    | .ok workloads =>
      { reads, before, persisted, deleted, after := rest
        workloadsDeleted := retiredWorkloads plan reads.pods workloads }

/-- **One pass**: plan, persist, hand removals over, delete. -/
def pass (deploymentUID : String) (before : Server) (reads : PassReads) : Entry :=
  let planned := planRetirement deploymentUID before reads
  match persistRetirement reads planned.1 planned.2 with
  | none => { reads, before, persisted := planned.2, after := planned.2 }
  | some persisted =>
    let admitted := admitRetirement reads reads.departing planned.1 persisted
    commitRetirement reads before persisted admitted.1 admitted.2

/-! ## What a pass can do to a reservation -/

/-- The engines were read empty, or the encoder has waited its window out. -/
def Emptied (reads : PassReads) (r : RetirementStatus) : Prop :=
  if replicaIsEncode (retirementTarget r reads.pods) then budgetSpent r drainBudget reads.now = true
  else Drained reads.drain (retirementEngine reads.engineName) (retirementTarget r reads.pods)

/-- **Every move of a reservation, with what was seen for it.**  `r` is the reservation the pass finds
and `q` the one it leaves; `recorded` is as the pass leaves it. -/
inductive Moved (deploymentUID : String) (reads : PassReads) (recorded : ReleaseAnnotation)
    (r : RetirementStatus) : RetirementStatus → Prop
  | stayed (reason : String) : Moved deploymentUID reads recorded r { r with reason }
  | aborted {q : RetirementStatus} (same : q.operation = r.operation) (state : q.state = .aborted)
      (stored : q.stored = q) : Moved deploymentUID reads recorded r q
  | leftSelection (reason : String) (was : r.state = .admitted)
      (target : retirementTarget r reads.pods ≠ [])
      (label : ∀ pod ∈ retirementTarget r reads.pods, pod.eligible = false) :
      Moved deploymentUID reads recorded r { r with state := .disqualified, reason }
  | quiet (reason : String) (was : r.state = .disqualified)
      (unserved : Unserved reads.residual (uids (retirementTarget r reads.pods))) :
      Moved deploymentUID reads recorded r { r with state := .withdrawing, reason }
  | began (reason : String) (was : r.state = .withdrawing) :
      Moved deploymentUID reads recorded r
        { r with state := .draining, reason, phaseStartedAt := wholeSeconds reads.now }
  | released (reason : String) (was : r.state = .draining) (emptied : Emptied reads r)
      (record : ReleaseRecord) (written : recorded = .recorded record)
      (shows : record.Shows deploymentUID r) :
      Moved deploymentUID reads recorded r
        { r with state := .deleting, reason, phaseStartedAt := wholeSeconds reads.now }
  | gone (reason : String) (was : r.state = .deleting) :
      Moved deploymentUID reads recorded r
        { r with state := .settling, reason, phaseStartedAt := wholeSeconds reads.now }

/-- What a plan says about the reservation it was made for. -/
structure Planned (deploymentUID : String) (reads : PassReads) (recorded : ReleaseAnnotation)
    (r : RetirementStatus) (plan : RetirementPlan) : Prop where
  next : ∀ q, plan.next = some q → Moved deploymentUID reads recorded r q.stored
  deletes : plan.deletes ≠ [] → plan.hold = true ∧ plan.deletes = retirementTarget r reads.pods ∧
    ∃ q, plan.next = some q ∧ q.state = .deleting

section Planned

variable {deploymentUID : String} {reads : PassReads} {recorded : ReleaseAnnotation}
  {r q : RetirementStatus} {members : List MemberPod} {reason : String}

theorem planned_holding (h : Moved deploymentUID reads recorded r q.stored) :
    Planned deploymentUID reads recorded r (holding members q) where
  next q' hq' := by
    obtain rfl : q = q' := Option.some.inj hq'
    exact h
  deletes h := absurd rfl h

theorem moved_stayed (hstored : r.stored = r) :
    Moved deploymentUID reads recorded r ({ r with reason } : RetirementStatus).stored := by
  have h : ({ r with reason } : RetirementStatus).stored = { r.stored with reason } := rfl
  rw [h, hstored]
  exact .stayed reason

theorem planned_stay (hstored : r.stored = r) :
    Planned deploymentUID reads recorded r (stay members r reason) :=
  planned_holding (moved_stayed hstored)

theorem planned_abort {now : ℤ} (same : q.operation = r.operation) :
    Planned deploymentUID reads recorded r (abortRetirement members q now reason) where
  next q' hq' := by
    obtain rfl := Option.some.inj hq'
    exact .aborted ((RetirementStatus.operation_stored _).trans same) rfl (stored_stored _)
  deletes h := absurd rfl h

theorem emptied_of_drainRefusal (h : drainRefusal reads (retirementTarget r reads.pods) r = none) :
    Emptied reads r := by
  rw [drainRefusal] at h
  rw [Emptied]
  split at h
  · next hencode => rw [if_pos hencode]; exact not_not.mp (refuseIf_eq_none.mp h)
  · next hencode => rw [if_neg hencode]; exact observeDrained_eq_none h

variable (hstored : r.stored = r)
include hstored

theorem stored_startedAt : wholeSeconds r.startedAt = r.startedAt :=
  congrArg RetirementStatus.startedAt hstored

theorem stored_deadline : wholeSeconds r.deadline = r.deadline :=
  congrArg RetirementStatus.deadline hstored

theorem stored_phaseStartedAt : wholeSeconds r.phaseStartedAt = r.phaseStartedAt :=
  congrArg RetirementStatus.phaseStartedAt hstored

/-- A move that keeps the phase is stored as it is. -/
theorem stored_of_state (state : RetirementState) :
    ({ r with state, reason } : RetirementStatus).stored = { r with state, reason } := by
  simp only [RetirementStatus.stored, stored_startedAt hstored, stored_deadline hstored,
    stored_phaseStartedAt hstored]

/-- A move into a new phase is stored with the second it began in. -/
theorem stored_of_phase (state : RetirementState) (now : ℤ) :
    ({ r with state, reason, phaseStartedAt := now } : RetirementStatus).stored =
      { r with state, reason, phaseStartedAt := wholeSeconds now } := by
  simp only [RetirementStatus.stored, stored_startedAt hstored, stored_deadline hstored]

theorem stored_of_second (state : RetirementState) (now : ℤ) :
    ({ r with state, reason, phaseStartedAt := wholeSeconds now } : RetirementStatus).stored =
      { r with state, reason, phaseStartedAt := wholeSeconds now } := by
  rw [stored_of_phase hstored, wholeSeconds_wholeSeconds]

theorem planned_disqualified (was : r.state = .admitted) (target : retirementTarget r reads.pods ≠ []) :
    Planned deploymentUID reads recorded r
      (advanceToDisqualified reads (retirementTarget r reads.pods) r) := by
  rw [advanceToDisqualified]
  split
  · exact planned_abort rfl
  split
  · exact planned_stay hstored
  next hlabel =>
  refine planned_holding ?_
  rw [stored_of_state hstored]
  exact .leftSelection _ was target (by simpa using hlabel)

theorem planned_withdrawing (was : r.state = .disqualified) :
    Planned deploymentUID reads recorded r
      (advanceToWithdrawing reads (retirementTarget r reads.pods) r) := by
  rw [advanceToWithdrawing]
  split
  · exact planned_abort rfl
  split
  · exact planned_stay hstored
  next hresidual =>
  refine planned_holding ?_
  rw [stored_of_state hstored]
  exact .quiet _ was (observeResidual_eq_none hresidual)

theorem planned_draining (was : r.state = .withdrawing) :
    Planned deploymentUID reads recorded r
      (advanceToDraining reads (retirementTarget r reads.pods) r) := by
  rw [advanceToDraining]
  split
  · exact planned_abort rfl
  refine planned_holding ?_
  rw [stored_of_phase hstored]
  exact .began _ was

theorem planned_holdBeforeDelete :
    Planned deploymentUID reads recorded r (holdBeforeDelete reads members r reason) := by
  rw [holdBeforeDelete]
  split
  · exact planned_abort rfl
  · have h : Planned deploymentUID reads recorded r (stay members r reason) := planned_stay hstored
    exact ⟨h.next, h.deletes⟩

theorem planned_deleting (was : r.state = .draining) :
    Planned deploymentUID reads
      (advanceToDeleting deploymentUID reads recorded (retirementTarget r reads.pods) r).2 r
      (advanceToDeleting deploymentUID reads recorded (retirementTarget r reads.pods) r).1 := by
  rw [advanceToDeleting]
  split
  · exact planned_abort rfl
  split
  · exact planned_stay hstored
  next hdrained =>
  split
  · exact planned_holdBeforeDelete hstored
  split
  · exact planned_holdBeforeDelete hstored
  split
  · exact planned_holdBeforeDelete hstored
  next record hrecord =>
  refine ⟨fun q hq => ?_, fun _ => ⟨rfl, rfl, _, rfl, rfl⟩⟩
  obtain rfl := Option.some.inj hq
  rw [stored_of_phase hstored]
  obtain ⟨hwritten, hshows⟩ := loadRelease_eq_ok hrecord
  exact .released _ was (emptied_of_drainRefusal hdrained) record hwritten hshows

theorem planned_settling (was : r.state = .deleting) :
    Planned deploymentUID reads recorded r
      (advanceToSettling deploymentUID reads recorded (retirementTarget r reads.pods) r) := by
  rw [advanceToSettling]
  split
  · next reason _ =>
    have h : Planned deploymentUID reads recorded r
        (stay (retirementTarget r reads.pods) r reason) := planned_stay hstored
    exact ⟨h.next, fun _ => ⟨rfl, rfl, _, rfl, was⟩⟩
  refine planned_holding ?_
  rw [stored_of_phase hstored]
  exact .gone _ was

theorem planned_completed :
    Planned deploymentUID reads recorded r
      (advanceToCompleted deploymentUID reads recorded (retirementTarget r reads.pods) r) := by
  rw [advanceToCompleted]
  split
  · exact planned_stay hstored
  · exact ⟨fun q hq => by simp [RetirementPlan.next] at hq, fun h => absurd rfl h⟩

theorem planned_pastDeletion :
    Planned deploymentUID reads recorded r
      (advancePastDeletion deploymentUID reads recorded (retirementTarget r reads.pods) r) := by
  rw [advancePastDeletion]
  split
  · exact planned_stay hstored
  split
  · next was => exact planned_settling hstored was
  · exact planned_completed hstored

/-- The step from a state before the delete; an aborted reservation makes none. -/
theorem planned_advance (target : retirementTarget r reads.pods ≠ []) :
    Planned deploymentUID reads
      (advance deploymentUID reads recorded (retirementTarget r reads.pods) r).2 r
      (advance deploymentUID reads recorded (retirementTarget r reads.pods) r).1 := by
  rw [advance]
  split
  · next was => exact planned_disqualified hstored was target
  · next was => exact planned_withdrawing hstored was
  · next was => exact planned_draining hstored was
  · next was => exact planned_deleting hstored was
  · have h : Planned deploymentUID reads recorded r
        (holding (retirementTarget r reads.pods) r) := planned_holding (moved_stayed hstored)
    exact ⟨h.next, h.deletes⟩

end Planned

/-- The pass consumed a new directive, and the reservation starts over. -/
def Retries (reads : PassReads) (r q : RetirementStatus) : Prop :=
  ∃ token, newDirective reads r = some token ∧ q = (retried r token reads.now).stored

/-- **What a plan can do.**  It moves the reservation it finds, or starts an aborted one over. -/
theorem planned_plan {deploymentUID : String} {s : Server} {reads : PassReads} {r : RetirementStatus}
    (hr : s.reservation = some r) (hstored : r.stored = r) :
    let planned := planRetirement deploymentUID s reads
    (Planned deploymentUID reads planned.2.recorded r planned.1 ∧
        planned.2.reservation = some r) ∨
      (planned.1.deletes = [] ∧ planned.1.hold = true ∧
        ∃ q, Retries reads r q ∧ planned.2.reservation = some q ∧
          planned.1.next.map RetirementStatus.stored = some q) := by
  intro planned
  have hcleared : ∀ members, Planned deploymentUID reads s.recorded r
      { reservation := some r, members, clear := true } := fun members =>
    ⟨fun q hq => by simp [RetirementPlan.next] at hq, fun h => absurd rfl h⟩
  simp only [planned, planRetirement, hr]
  split
  · exact .inl ⟨hcleared _, hr⟩
  split
  · exact .inl ⟨planned_pastDeletion hstored, hr⟩
  split
  · refine .inl ⟨⟨fun q hq => ?_, fun h => absurd rfl h⟩, hr⟩
    obtain rfl := Option.some.inj hq
    exact .aborted (RetirementStatus.operation_stored _) rfl (stored_stored _)
  next htarget =>
  split
  · exact .inl ⟨hcleared _, hr⟩
  · exact .inl ⟨planned_holding (moved_stayed hstored), hr⟩
  split
  · next r' hretry =>
    rw [consumeRetry, Option.bind_eq_some_iff] at hretry
    obtain ⟨token, htoken, hlands⟩ := hretry
    rw [Option.ite_none_right_eq_some] at hlands
    obtain ⟨-, hr'⟩ := hlands
    refine .inr ⟨rfl, rfl, r'.stored, ⟨token, htoken, ?_⟩, rfl, rfl⟩
    rw [← Option.some.inj hr']
  · exact .inl ⟨planned_advance hstored (not_or.mp htarget).1, rfl⟩

end GpuStack.Retirement
