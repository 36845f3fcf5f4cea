import GpuStack.Elastic.Operation

/-!
# Elastic/Kernel — the next step of a resize

`decideElasticOperation` is a pure function of the record and the facts of one pass.  Its checks are in
the order of what must be proven, and every gap is a hold.

What it can decide is said once (`Decides`): a first command leaves only from a record that has sent
none, a refused one is repeated only on a recorded refusal, to an idle engine and within the bound,
workers go only with every proof in hand, and a narrowing ends only on an observed release.
-/

namespace GpuStack

/-! ## Facts and decisions -/

/-- One layer's observed value; a layer that was not read says why. -/
structure ElasticLayer where
  known : Bool := false
  value : ℤ := 0
  reason : String := ""
deriving DecidableEq, Repr

def knownLayer (value : ℤ) : ElasticLayer := { known := true, value }

def unknownLayer (reason : String) : ElasticLayer := { reason }

/-- Everything the kernel may decide from. -/
structure ElasticFacts where
  deploymentUID : String := ""
  generation : ℤ := 0
  desired : ElasticLayer := {}
  admitted : ElasticLayer := {}
  ray : ElasticLayer := {}
  effective : ElasticLayer := {}
  admittedAllocation : ElasticLayer := {}
  withdrawalConfirmed : Bool := false
  nativeComplete : Bool := false
  scalingKnown : Bool := false
  scaling : Bool := false
  forwardProven : Bool := false
  actorFree : AList fun _ : String => Bool := ∅
  actorMappingKnown : Bool := false
  releaseObserved : Bool := false
deriving DecidableEq

inductive ElasticAction
  | hold
  | requestScale
  | retryScale
  | awaitNative
  | awaitWithdrawal
  | awaitForward
  | release
  | complete
deriving DecidableEq, Repr

/-- The actions that change nothing outside the record. -/
def ElasticAction.waits : ElasticAction → Bool
  | .hold | .awaitNative | .awaitWithdrawal | .awaitForward => true
  | _ => false

/-- What to do, and what the state becomes. -/
structure ElasticDecision where
  action : ElasticAction
  state : ElasticOperationState
  reason : String
deriving DecidableEq, Repr

def elasticHold (state : ElasticOperationState) (reason : String) : ElasticDecision :=
  ⟨.hold, state, reason⟩

/-- A scale command is sent at most this often. -/
def elasticScaleMaxAttempts : ℤ := 5

/-! ## Before the command -/

/-- The only decision that sends a first command. -/
def requestScale (op : ElasticOperation) : ElasticDecision :=
  ⟨.requestScale, .commandSent, "the engine was not yet asked to move from "
    ++ toString op.width.old ++ " to " ++ toString op.width.target⟩

def decideBeforeCommand (op : ElasticOperation) (facts : ElasticFacts) : ElasticDecision :=
  if ¬ facts.desired.known then
    elasticHold op.state ("the desired width is unknown: " ++ facts.desired.reason)
  else if facts.desired.value ≠ op.width.target then
    elasticHold op.state ("the spec now wants width " ++ toString facts.desired.value
      ++ " rather than " ++ toString op.width.target)
  else if ¬ op.width.upward then
    -- a narrowing is withdrawn before the engine is told
    if ¬ facts.withdrawalConfirmed then
      ⟨.awaitWithdrawal, op.state, "the serving side has not confirmed the narrowing withdrew"⟩
    else requestScale op
  else if ¬ facts.admitted.known then
    elasticHold op.state ("admitted width is unknown: " ++ facts.admitted.reason)
  else if facts.admitted.value < op.width.target then
    elasticHold op.state ("only " ++ toString facts.admitted.value ++ " workers are admitted and "
      ++ toString op.width.target ++ " are wanted")
  else if ¬ facts.admittedAllocation.known then
    elasticHold op.state ("admitted allocation is unknown: " ++ facts.admittedAllocation.reason)
  else if facts.admittedAllocation.value < op.width.target then
    elasticHold op.state ("only " ++ toString facts.admittedAllocation.value
      ++ " workers hold an allocation and " ++ toString op.width.target ++ " are wanted")
  else if ¬ facts.ray.known then
    elasticHold op.state ("the ray world is unknown: " ++ facts.ray.reason)
  else if facts.ray.value < op.width.target then
    elasticHold op.state ("the ray world holds " ++ toString facts.ray.value ++ " members and "
      ++ toString op.width.target ++ " are wanted")
  else requestScale op

/-! ## After the command -/

/-- The terminal refusal: the widths, the spent bound and the engine's last refusal. -/
def elasticScaleRefusalMessage (op : ElasticOperation) : String :=
  "the scale command from width " ++ toString op.width.old ++ " to " ++ toString op.width.target
    ++ " was refused " ++ toString (max op.scaleAttempts 1)
    ++ " times and its retry bound is spent; the last refusal: " ++ op.scaleLastError

/-- What follows a recorded refusal: another attempt within the bound, and then the end. -/
def elasticScaleRefusalOutcome (op : ElasticOperation) (facts : ElasticFacts) :
    Option ElasticDecision :=
  if op.scaleLastError = "" then none
  else if ¬ facts.scalingKnown then
    some (elasticHold op.state ("the engine did not answer whether it is scaling, so the refused " ++
      "command is not re-issued on a guess; the recorded refusal: " ++ op.scaleLastError))
  else if facts.scaling then
    some (elasticHold op.state ("the engine is still scaling, so the refused command waits for it " ++
      "to settle; the recorded refusal: " ++ op.scaleLastError))
  else if max op.scaleAttempts 1 < elasticScaleMaxAttempts then
    some ⟨.retryScale, op.state, "the engine refused the scale command to width "
      ++ toString op.width.target ++ "; the recorded refusal: " ++ op.scaleLastError⟩
  else some (elasticHold .abandoned (elasticScaleRefusalMessage op))

/-- The wait for the engine, or what a refusal makes of it. -/
def awaitNative (op : ElasticOperation) (facts : ElasticFacts) : ElasticDecision :=
  (elasticScaleRefusalOutcome op facts).getD
    ⟨.awaitNative, .awaitingWidth, "the engine has not reported the new width yet"⟩

def decideUpwardAfterCommand (op : ElasticOperation) (facts : ElasticFacts) : ElasticDecision :=
  if ¬ facts.nativeComplete then awaitNative op facts
  else if ¬ facts.effective.known then
    elasticHold .nativeDone ("the effective width is unknown: " ++ facts.effective.reason)
  else if facts.effective.value ≠ op.width.target then
    elasticHold .nativeDone ("the engine reports width " ++ toString facts.effective.value
      ++ " rather than " ++ toString op.width.target)
  else if ¬ facts.forwardProven then
    ⟨.awaitForward, .nativeDone, "no request has been served at the new width yet"⟩
  else ⟨.complete, .completed, "the engine serves at width " ++ toString op.width.target⟩

/-- Why one worker may not be removed, if it may not. -/
def workerHeld (op : ElasticOperation) (facts : ElasticFacts) (worker : ElasticCapturedIdentity) :
    Option String :=
  if worker.uid = op.master.uid then
    some ("worker " ++ worker.name ++ " is the master and is never retirable")
  else match facts.actorFree.lookup worker.uid with
    | none => some ("worker " ++ worker.name ++ " has no actor evidence, because nothing mapped it")
    | some false => some ("worker " ++ worker.name ++ " still holds an actor")
    | some true => none

/-- Why the captured workers may not be removed, if they may not. -/
def elasticRetirementRefusal (op : ElasticOperation) (facts : ElasticFacts) : Option String :=
  if ¬ facts.actorMappingKnown then
    some "the runtime's actor mapping could not be read, so no worker is proven actor-free"
  else op.retractableWorkers.findSome? (workerHeld op facts)

def decideDownwardAfterCommand (op : ElasticOperation) (facts : ElasticFacts) : ElasticDecision :=
  if ¬ facts.nativeComplete then awaitNative op facts
  else if ¬ facts.effective.known then
    elasticHold .nativeDone ("the effective width is unknown: " ++ facts.effective.reason)
  else if facts.effective.value ≠ op.width.target then
    elasticHold .nativeDone ("the engine reports width " ++ toString facts.effective.value
      ++ " rather than " ++ toString op.width.target)
  else if ¬ facts.forwardProven then
    ⟨.awaitForward, .nativeDone, "no request has been served at the new width yet"⟩
  else if ¬ facts.withdrawalConfirmed then
    ⟨.awaitWithdrawal, .withdrawn, "the serving side has not confirmed the narrowing withdrew"⟩
  else match elasticRetirementRefusal op facts with
    | some reason => elasticHold .withdrawn reason
    | none => ⟨.release, .released, toString op.retractableWorkers.length
        ++ " captured workers are proven actor-free and may be released"⟩

/-- The last step needs the release observed, not issued. -/
def elasticReleaseComplete (facts : ElasticFacts) : ElasticDecision :=
  if ¬ facts.releaseObserved then
    elasticHold .released
      "the captured workers have not been seen released from the ledger and the quota"
  else ⟨.complete, .completed, "the narrowing is released, observed and complete"⟩

def decideAfterCommand (op : ElasticOperation) (facts : ElasticFacts) : ElasticDecision :=
  if op.width.upward then decideUpwardAfterCommand op facts
  else if op.state = .released then elasticReleaseComplete facts
  else decideDownwardAfterCommand op facts

/-- **The whole kernel.** -/
def decideElasticOperation (op : ElasticOperation) (facts : ElasticFacts) : ElasticDecision :=
  match op.validate with
  | some reason => ⟨.hold, op.state, "elastic resize operation is not usable: " ++ reason⟩
  | none =>
    if facts.deploymentUID ≠ op.deploymentUID then
      elasticHold op.state ("the facts are about deployment " ++ facts.deploymentUID
        ++ " rather than " ++ op.deploymentUID)
    else if facts.generation ≠ op.generation then
      elasticHold op.state ("the deployment is at generation " ++ toString facts.generation
        ++ " while this operation is bound to " ++ toString op.generation)
    else if op.sentState then decideAfterCommand op facts
    else decideBeforeCommand op facts

/-! ## What a decision says of the record -/

variable (op : ElasticOperation) (facts : ElasticFacts)

/-- A record that is not usable, or facts of another deployment or generation, decide nothing. -/
theorem decideElasticOperation_eq :
    (decideElasticOperation op facts).action = .hold ∧
      (decideElasticOperation op facts).state = op.state ∨
    op.validate = none ∧ decideElasticOperation op facts
      = if op.sentState then decideAfterCommand op facts else decideBeforeCommand op facts := by
  unfold decideElasticOperation
  split
  · exact .inl ⟨rfl, rfl⟩
  · rename_i hvalid
    split_ifs <;> simp [elasticHold, hvalid]

/-- Before the command only the first one is sent, and the state stands otherwise. -/
theorem decideBeforeCommand_cases :
    (decideBeforeCommand op facts).state = op.state ∧ (decideBeforeCommand op facts).action.waits ∨
    decideBeforeCommand op facts = requestScale op := by
  unfold decideBeforeCommand
  split_ifs <;> simp [elasticHold, ElasticAction.waits]

/-- A refusal is recorded, the engine is idle and the bound is not spent. -/
structure RetryOwed (op : ElasticOperation) (facts : ElasticFacts) : Prop where
  refused : op.scaleLastError ≠ ""
  known : facts.scalingKnown = true
  idle : facts.scaling = false
  bound : op.scaleAttempts < elasticScaleMaxAttempts

/-- The wait for the engine repeats a refused command, if it is owed. -/
theorem awaitNative_cases : (awaitNative op facts).action.waits ∨
    (awaitNative op facts).action = .retryScale ∧ RetryOwed op facts := by
  unfold awaitNative elasticScaleRefusalOutcome
  split_ifs with herr hknown hscaling hbound
  · exact .inl rfl
  · exact .inl rfl
  · have hlt : op.scaleAttempts < elasticScaleMaxAttempts := lt_of_le_of_lt (le_max_left _ _) hbound
    exact .inr ⟨rfl, herr, hknown, by simpa using hscaling, hlt⟩
  · exact .inl rfl
  · exact .inl rfl

/-- Every proof a release needs. -/
structure Retirable (op : ElasticOperation) (facts : ElasticFacts) : Prop where
  nativeComplete : facts.nativeComplete = true
  effective : facts.effective.known = true ∧ facts.effective.value = op.width.target
  forwardProven : facts.forwardProven = true
  withdrawalConfirmed : facts.withdrawalConfirmed = true
  actorFree : ∀ worker ∈ op.retractableWorkers,
    worker.uid ≠ op.master.uid ∧ facts.actorFree.lookup worker.uid = some true

variable {op facts} in
theorem workerHeld_eq_none {worker : ElasticCapturedIdentity} :
    workerHeld op facts worker = none ↔
      worker.uid ≠ op.master.uid ∧ facts.actorFree.lookup worker.uid = some true := by
  unfold workerHeld
  grind

/-- The narrowing direction waits for the engine, or releases with every proof. -/
theorem decideDownwardAfterCommand_cases :
    decideDownwardAfterCommand op facts = awaitNative op facts ∨
    (decideDownwardAfterCommand op facts).action.waits ∨
    (decideDownwardAfterCommand op facts).action = .release ∧ Retirable op facts := by
  unfold decideDownwardAfterCommand
  split_ifs with hnative hknown hvalue hforward hwithdrawn
  · exact .inr (.inl rfl)
  · cases href : elasticRetirementRefusal op facts with
    | some reason => exact .inr (.inl rfl)
    | none =>
      have hworkers : ∀ worker ∈ op.retractableWorkers, workerHeld op facts worker = none := by
        unfold elasticRetirementRefusal at href
        split at href
        · cases href
        · exact List.findSome?_eq_none_iff.mp href
      exact .inr (.inr ⟨rfl, hnative, ⟨hknown, by simpa using hvalue⟩, hforward, hwithdrawn,
        fun worker hworker => workerHeld_eq_none.mp (hworkers worker hworker)⟩)
  · exact .inr (.inl rfl)
  · exact .inr (.inl rfl)
  · exact .inr (.inl rfl)
  · exact .inl rfl

/-- The widening direction waits for the engine, or is complete. -/
theorem decideUpwardAfterCommand_cases :
    decideUpwardAfterCommand op facts = awaitNative op facts ∨
    (decideUpwardAfterCommand op facts).action.waits ∨
    (decideUpwardAfterCommand op facts).action = .complete := by
  unfold decideUpwardAfterCommand
  split_ifs <;> simp [elasticHold, ElasticAction.waits]

/-- **What follows a command**: a wait, a repeated command that is owed, a release with every proof,
or the end, which for a narrowing is an observed release. -/
theorem decideAfterCommand_cases : (decideAfterCommand op facts).action.waits ∨
    (decideAfterCommand op facts).action = .retryScale ∧ RetryOwed op facts ∨
    (decideAfterCommand op facts).action = .release ∧ op.width.upward = false ∧
      Retirable op facts ∨
    (decideAfterCommand op facts).action = .complete ∧
      (op.width.upward = false → op.state = .released ∧ facts.releaseObserved = true) := by
  unfold decideAfterCommand
  split
  · rename_i hup
    obtain hawait | hwait | hdone := decideUpwardAfterCommand_cases op facts
    · rw [hawait]
      exact (awaitNative_cases op facts).imp_right .inl
    · exact .inl hwait
    · exact .inr (.inr (.inr ⟨hdone, fun hdown => absurd hup (by simp [hdown])⟩))
  · rename_i hdown
    split
    · rename_i hreleased
      unfold elasticReleaseComplete
      split
      · exact .inl rfl
      · rename_i hseen
        exact .inr (.inr (.inr ⟨rfl, fun _ => ⟨hreleased, by simpa using hseen⟩⟩))
    · obtain hawait | hwait | ⟨hrelease, hproofs⟩ :=
        decideDownwardAfterCommand_cases op facts
      · rw [hawait]
        exact (awaitNative_cases op facts).imp_right .inl
      · exact .inl hwait
      · exact .inr (.inr (.inl ⟨hrelease, by simpa using hdown, hproofs⟩))

/-- **What the kernel can decide on a record.** -/
inductive Decides : ElasticDecision → Prop
  | waits {d : ElasticDecision} (hwaits : d.action.waits)
      (hstate : op.sentState = false → d.state = op.state) : Decides d
  | requests (hvalid : op.validate = none) (hunsent : op.sentState = false) :
      Decides (requestScale op)
  | retries {d : ElasticDecision} (haction : d.action = .retryScale) (hvalid : op.validate = none)
      (hsent : op.sentState = true) (howed : RetryOwed op facts) : Decides d
  | releases {d : ElasticDecision} (haction : d.action = .release) (hvalid : op.validate = none)
      (hsent : op.sentState = true) (hdown : op.width.upward = false)
      (hproofs : Retirable op facts) : Decides d
  | completes {d : ElasticDecision} (haction : d.action = .complete) (hvalid : op.validate = none)
      (hsent : op.sentState = true)
      (hdown : op.width.upward = false → op.state = .released ∧ facts.releaseObserved = true) :
      Decides d

theorem decides : Decides op facts (decideElasticOperation op facts) := by
  obtain ⟨hhold, hstate⟩ | ⟨hvalid, heq⟩ := decideElasticOperation_eq op facts
  · exact .waits (by rw [hhold]; rfl) fun _ => hstate
  · rw [heq]
    split
    · rename_i hsent
      obtain hwaits | ⟨hact, howed⟩ | ⟨hact, hdown, hproofs⟩ | ⟨hact, hdown⟩ :=
        decideAfterCommand_cases op facts
      · exact .waits hwaits fun hunsent => absurd hsent (by simp [hunsent])
      · exact .retries hact hvalid hsent howed
      · exact .releases hact hvalid hsent hdown hproofs
      · exact .completes hact hvalid hsent hdown
    · rename_i hunsent
      obtain ⟨hstate, hwaits⟩ | hrequest := decideBeforeCommand_cases op facts
      · exact .waits hwaits fun _ => hstate
      · rw [hrequest]
        exact .requests hvalid (by simpa using hunsent)

end GpuStack
