import Mathlib

/-!
# Elastic/Operation — the record of a resize

A resize of an elastic deployment cannot be recovered by asking the engine what it thinks is
happening, so its intent is a durable record, written before the command leaves.  Here is the record,
what makes one usable (`validate`), and what a later write of it may not move (`envelopeDrift`).

That a command was sent stands in the record twice, as a state and as a flag.  A usable record has
them agree (`sentState_of_validate`), and no write takes the flag back (`commandSent_of_envelopeDrift`).
-/

namespace GpuStack

/-- Where an operation is.  `unset` is the empty string; `other` is any text that is no state. -/
inductive ElasticOperationState
  | unset
  | recorded
  | commandSent
  | awaitingWidth
  | nativeDone
  | withdrawn
  | released
  | completed
  | abandoned
  | other (name : String)
deriving DecidableEq, Repr

/-- The expert-parallel width the operation moves between. -/
structure ElasticWidth where
  old : ℤ
  target : ℤ
deriving DecidableEq, Repr

/-- The operation adds workers. -/
def ElasticWidth.upward (w : ElasticWidth) : Bool := w.target > w.old

/-- A captured worker.  The UID is the identity; a name can be taken by a replacement. -/
structure ElasticCapturedIdentity where
  name : String := ""
  uid : String := ""
deriving DecidableEq, Repr

/-- A member whose release is owed, and the allocation it was recorded as holding. -/
structure ReleaseMember where
  podUID : String
  space : String
  name : String
  claim : String := ""
deriving DecidableEq, Repr

/-- A node the release is judged against: the ledger object, and the inventory at the capture. -/
structure ReleaseNode where
  nodeName : String
  devicesName : String
  devicesUID : String
  inventory : String := ""
deriving DecidableEq, Repr

/-- What the workers to be released hold, captured while they can still be read. -/
structure RetirementRelease where
  modelDeploymentUID : String
  observedGeneration : ℤ
  targetMemberUIDs : List String := []
  members : List ReleaseMember := []
  workloadUIDs : List String := []
  nodes : List ReleaseNode := []
deriving DecidableEq, Repr

/-- **The durable record of one resize.**  Times are in nanoseconds; `resourceVersion` is the version
of the stored object it was read from. -/
structure ElasticOperation where
  name : String
  deploymentUID : String
  space : String
  generation : ℤ
  width : ElasticWidth
  workers : List ElasticCapturedIdentity := []
  master : ElasticCapturedIdentity
  head : ElasticCapturedIdentity := {}
  members : List ElasticCapturedIdentity := []
  release : Option RetirementRelease := none
  state : ElasticOperationState := .recorded
  commandIntent : String := ""
  commandSent : Bool := false
  scaleAttempts : ℤ := 0
  scaleLastError : String := ""
  scaleLastFailedAt : Option ℤ := none
  scaleAmbiguousAttempts : ℤ := 0
  resourceVersion : Option ℕ := none
deriving DecidableEq, Repr

/-- A check of a record: the reason, if the condition it guards against holds. -/
def refuseIf (p : Prop) [Decidable p] (reason : String) : Option String :=
  if p then some reason else none

@[simp] theorem refuseIf_eq_none {p : Prop} [Decidable p] {reason : String} :
    refuseIf p reason = none ↔ ¬ p := by
  simp [refuseIf]

namespace ElasticOperation

variable (eo : ElasticOperation)

/-- The state says that a command has left. -/
def sentState : Bool :=
  match eo.state with
  | .commandSent | .awaitingWidth | .nativeDone | .withdrawn | .released | .completed
  | .abandoned => true
  | _ => false

/-- The first thing of the envelope an update would move, if it would. -/
def envelopeDrift (next : ElasticOperation) : Option String :=
  (refuseIf (eo.head ≠ next.head ∨ eo.members ≠ next.members ∨ eo.release ≠ next.release)
    "the captured runtime and allocation identities cannot change").or <|
  (refuseIf (eo.deploymentUID ≠ next.deploymentUID)
    "the record cannot be moved to another deployment").or <|
  (refuseIf (eo.generation ≠ next.generation)
    "the record cannot be rebound to another spec generation").or <|
  (refuseIf (eo.width ≠ next.width) "the record cannot be retargeted to another width").or <|
  (refuseIf (eo.workers.length ≠ next.workers.length)
    "the record cannot capture a different number of workers").or <|
  (refuseIf (eo.workers ≠ next.workers)
    "the record cannot capture a different worker identity").or <|
  (refuseIf (eo.master ≠ next.master)
    "the record cannot capture a different master identity").or <|
  (refuseIf (eo.commandIntent ≠ "" ∧ next.commandIntent ≠ eo.commandIntent)
    "the record cannot change the command it already recorded").or <|
  refuseIf (eo.commandSent = true ∧ next.commandSent = false)
    "the record cannot forget that a command was sent"

/-- Why a captured worker is not one, if it is not. -/
def workerRefusal (worker : ElasticCapturedIdentity) (i : ℕ) : Option String :=
  (refuseIf (worker.uid = "") ("captured worker " ++ toString i ++ " has no identity")).or <|
  (refuseIf (worker.name = "") ("captured worker " ++ toString i ++ " has no name")).or <|
  refuseIf (worker.uid = eo.master.uid) "the master is also captured as retirable"

/-- Why a record cannot describe an operation, if it cannot. -/
def validate : Option String :=
  (refuseIf (eo.deploymentUID = "") "it names no deployment").or <|
  (refuseIf (eo.generation ≤ 0) "it is bound to no spec generation").or <|
  (refuseIf (eo.width.old ≤ 0 ∨ eo.width.target ≤ 0)
    ("widths " ++ toString eo.width.old ++ " to " ++ toString eo.width.target
      ++ " are not a resize")).or <|
  (refuseIf (eo.width.old = eo.width.target) "the target width equals the old one").or <|
  (refuseIf (eo.state = .unset) "it carries no state").or <|
  (refuseIf (eo.commandSent = true ∧ eo.sentState = false)
    "it says a command was sent in a state that has not").or <|
  (refuseIf (eo.commandSent = false ∧ eo.sentState = true)
    "it says no command was sent in a state that has").or <|
  (refuseIf (eo.master.uid = "" ∨ eo.master.name = "") "it captured no master identity").or <|
  (refuseIf (eo.name = "") "it names no deployment").or <|
  (refuseIf (eo.space = "") "it names no namespace to store the record in").or <|
  eo.workers.zipIdx.findSome? fun w => eo.workerRefusal w.1 w.2

/-- The captured workers, without the master. -/
def retractableWorkers : List ElasticCapturedIdentity :=
  eo.workers.filter fun worker => worker.uid ≠ eo.master.uid

variable {eo} {next : ElasticOperation}

/-- A usable record says the same thing twice. -/
theorem sentState_of_validate (h : eo.validate = none) : eo.sentState = eo.commandSent := by
  simp only [validate, Option.or_eq_none_iff, refuseIf_eq_none] at h
  grind

/-- A usable record moves between two different widths. -/
theorem width_ne_of_validate (h : eo.validate = none) : eo.width.old ≠ eo.width.target := by
  simp only [validate, Option.or_eq_none_iff, refuseIf_eq_none] at h
  exact h.2.2.2.1

/-- A usable record captures no master. -/
theorem worker_ne_master_of_validate (h : eo.validate = none) {worker : ElasticCapturedIdentity}
    (hworker : worker ∈ eo.workers) : worker.uid ≠ eo.master.uid := by
  simp only [validate, Option.or_eq_none_iff, refuseIf_eq_none, List.findSome?_eq_none_iff] at h
  obtain ⟨i, hi, rfl⟩ := List.getElem_of_mem hworker
  have hrefusal := h.2.2.2.2.2.2.2.2.2.2 (eo.workers[i], i) (List.mk_mem_zipIdx_iff_getElem?.mpr
    (List.getElem?_eq_getElem hi))
  simp only [workerRefusal, Option.or_eq_none_iff, refuseIf_eq_none] at hrefusal
  exact hrefusal.2.2

/-- So every captured worker of it may be removed. -/
theorem retractableWorkers_of_validate (h : eo.validate = none) :
    eo.retractableWorkers = eo.workers :=
  List.filter_eq_self.mpr fun _ hworker => decide_eq_true (worker_ne_master_of_validate h hworker)

/-- **No write takes back that a command was sent.** -/
theorem commandSent_of_envelopeDrift (h : eo.envelopeDrift next = none)
    (hsent : eo.commandSent = true) : next.commandSent = true := by
  simp only [envelopeDrift, Option.or_eq_none_iff, refuseIf_eq_none] at h
  grind

/-- What the operation was decided against stands through every write. -/
theorem same_of_envelopeDrift (h : eo.envelopeDrift next = none) :
    next.width = eo.width ∧ next.workers = eo.workers ∧ next.release = eo.release := by
  simp only [envelopeDrift, Option.or_eq_none_iff, refuseIf_eq_none] at h
  grind

end ElasticOperation

end GpuStack
