import GpuStack.Elastic.Operation
import GpuStack.Lib.Scan

/-!
# Elastic/Store — the stored record

The record of a deployment is one document in one object that the deployment owns.  A write is made
against the version that was read, by the owner it was read for, and keeps the envelope; so what an
update leaves behind is a usable record with the envelope of the one before (`update_spec`).
-/

namespace GpuStack

/-- The controlling owner of a stored object. -/
structure OwnerReference where
  kind : String
  apiVersion : String
  name : String
  uid : String
deriving DecidableEq, Repr

/-- The object a record is stored in, under the namespace and UID of its deployment. -/
structure StoredRecord where
  version : ℕ
  space : String
  recordOf : String
  owner : Option OwnerReference
  operation : ElasticOperation
deriving DecidableEq, Repr

/-- What there is of a deployment's record. -/
abbrev ElasticStore := Option StoredRecord

inductive StoreError
  | unusable (reason : String)
  | notFound
  | alreadyExists
  | conflict (read stored : ℕ)
deriving DecidableEq, Repr

/-- The group and version of the deployment's kind. -/
def workerGroupVersion : String := "worker.gpustack.ai/v1alpha1"

/-- Why the controlling owner is not the deployment that was named, if it is not. -/
def elasticControllingOwnerIs (stored : StoredRecord) (name deploymentUID : String) :
    Option String :=
  if name = "" ∨ deploymentUID = "" then
    some "no expected deployment identity was given to match the stored owner"
  else match stored.owner with
    | none => some "the stored record has no controlling owner"
    | some owner =>
      (refuseIf (owner.kind ≠ "ModelDeployment")
        ("the stored record is owned by a " ++ owner.kind ++ " rather than a ModelDeployment")).or <|
      (refuseIf (owner.apiVersion ≠ workerGroupVersion) ("the stored record's owner is "
        ++ owner.apiVersion ++ " rather than " ++ workerGroupVersion)).or <|
      (refuseIf (owner.name ≠ name) ("the stored record is owned by " ++ owner.name
        ++ " rather than the expected " ++ name)).or <|
      refuseIf (owner.uid ≠ deploymentUID) ("the stored record is owned by " ++ owner.uid
        ++ " rather than " ++ deploymentUID)

/-- The object, if it is still at a version. -/
def StoredRecord.atVersion (stored : StoredRecord) :
    Option ℕ → Except StoreError StoredRecord
  | none => .error (.unusable "the record was not read, so it carries no version to write against")
  | some version =>
    if stored.version ≠ version then .error (.conflict version stored.version) else .ok stored

namespace ElasticStore

variable (store : ElasticStore)

/-- The object under a namespace and a UID. -/
def get (space deploymentUID : String) : Except StoreError StoredRecord :=
  match store with
  | some stored =>
    if stored.space = space ∧ stored.recordOf = deploymentUID then .ok stored else .error .notFound
  | none => .error .notFound

/-- Refuse a record for a reason. -/
def refuse : Option String → Except StoreError Unit
  | some reason => .error (.unusable reason)
  | none => .ok ()

/-- The object a record was read from, still at the version it was read at. -/
def getVersion (op : ElasticOperation) : Except StoreError StoredRecord := do
  let stored ← get store op.space op.deploymentUID
  stored.atVersion op.resourceVersion

/-- Write the record for the first time. -/
def create (op : ElasticOperation) : Except StoreError StoredRecord := do
  refuse op.validate
  if (get store op.space op.deploymentUID).isOk then .error .alreadyExists
  else return {
    version := 0
    space := op.space
    recordOf := op.deploymentUID
    owner := some ⟨"ModelDeployment", workerGroupVersion, op.name, op.deploymentUID⟩
    operation := op }

/-- The deployment's record, with the version it was read at. -/
def read (space name deploymentUID : String) : Except StoreError ElasticOperation := do
  let stored ← get store space deploymentUID
  refuse (elasticControllingOwnerIs stored name deploymentUID)
  refuse (refuseIf
    (stored.operation.deploymentUID ≠ "" ∧ stored.operation.deploymentUID ≠ deploymentUID)
    ("the record inside names deployment " ++ stored.operation.deploymentUID
      ++ " while its owner is " ++ deploymentUID))
  refuse (refuseIf (stored.operation.name ≠ "" ∧ stored.operation.name ≠ name)
    ("the record inside names " ++ stored.operation.name ++ " while its owner is " ++ name))
  let op :=
    { stored.operation with
      space := stored.space, resourceVersion := some stored.version, name := name }
  refuse op.validate
  refuse (refuseIf (op.deploymentUID ≠ deploymentUID) ("the record inside is bound to "
    ++ op.deploymentUID ++ " rather than " ++ deploymentUID))
  return op

/-- **Write the record against the object it was read from.** -/
def update (op : ElasticOperation) : Except StoreError StoredRecord := do
  refuse op.validate
  let stored ← getVersion store op
  refuse (elasticControllingOwnerIs stored op.name op.deploymentUID)
  refuse (stored.operation.envelopeDrift op)
  return { stored with version := stored.version + 1, operation := op }

/-- Replace an interrupted record by its recovery record, in one write. -/
def recoverInterrupted (current recovered : ElasticOperation) : Except StoreError StoredRecord := do
  refuse current.validate
  refuse recovered.validate
  refuse (refuseIf (recovered.name ≠ current.name ∨ recovered.space ≠ current.space
      ∨ recovered.deploymentUID ≠ current.deploymentUID)
    "the recovery record is not this deployment's")
  let stored ← getVersion store current
  refuse (elasticControllingOwnerIs stored current.name current.deploymentUID)
  refuse (stored.operation.envelopeDrift current)
  return { stored with version := stored.version + 1, operation := recovered }

/-- Remove the record. -/
def delete (op : ElasticOperation) : Except StoreError ElasticStore := do
  refuse (refuseIf (op.resourceVersion = none) "deletion requires a read record")
  let stored ← get store op.space op.deploymentUID
  refuse (elasticControllingOwnerIs stored op.name op.deploymentUID)
  if op.resourceVersion = some stored.version then .ok none
  else .error (.conflict (op.resourceVersion.getD 0) stored.version)

/-! ## What a write leaves -/

variable {store} {op : ElasticOperation} {stored stored' : StoredRecord}

theorem refuse_eq_ok {reason : Option String} {u : Unit} : refuse reason = .ok u ↔ reason = none := by
  cases reason with
  | none => exact ⟨fun _ => rfl, fun _ => rfl⟩
  | some reason => exact ⟨nofun, nofun⟩

theorem get_eq_ok {space deploymentUID : String} (h : get store space deploymentUID = .ok stored) :
    store = some stored ∧ stored.space = space := by
  unfold get at h
  split at h
  · split at h
    · rename_i hkey
      obtain rfl := Except.ok.inj h
      exact ⟨rfl, hkey.1⟩
    · cases h
  · cases h

theorem getVersion_eq_ok (h : getVersion store op = .ok stored) :
    store = some stored ∧ stored.space = op.space := by
  obtain ⟨stored', hget, h⟩ := Scan.bind_eq_ok.mp h
  cases hversion : op.resourceVersion with
  | none => simp [StoredRecord.atVersion, hversion] at h
  | some version =>
    rw [hversion, StoredRecord.atVersion] at h
    split at h
    · cases h
    · obtain rfl := Except.ok.inj h
      exact get_eq_ok hget

/-- **An update leaves a usable record with the envelope of the one before.** -/
theorem update_spec (h : update store op = .ok stored') :
    ∃ stored, store = some stored ∧ stored.operation.envelopeDrift op = none ∧
      stored' = { stored with version := stored.version + 1, operation := op } := by
  obtain ⟨_, -, h⟩ := Scan.bind_eq_ok.mp h
  obtain ⟨stored, hget, h⟩ := Scan.bind_eq_ok.mp h
  obtain ⟨_, -, h⟩ := Scan.bind_eq_ok.mp h
  obtain ⟨_, hdrift, h⟩ := Scan.bind_eq_ok.mp h
  exact ⟨stored, (getVersion_eq_ok hget).1, refuse_eq_ok.mp hdrift, (Except.ok.inj h).symm⟩

/-- A recovery replaces the record as a whole. -/
theorem recoverInterrupted_spec {recovered : ElasticOperation}
    (h : recoverInterrupted store op recovered = .ok stored') :
    stored'.operation = recovered ∧ stored'.space = recovered.space := by
  obtain ⟨_, -, h⟩ := Scan.bind_eq_ok.mp h
  obtain ⟨_, -, h⟩ := Scan.bind_eq_ok.mp h
  obtain ⟨_, hsame, h⟩ := Scan.bind_eq_ok.mp h
  obtain ⟨stored, hget, h⟩ := Scan.bind_eq_ok.mp h
  obtain ⟨_, -, h⟩ := Scan.bind_eq_ok.mp h
  obtain ⟨_, -, h⟩ := Scan.bind_eq_ok.mp h
  obtain rfl := Except.ok.inj h
  have hspaces := refuseIf_eq_none.mp (refuse_eq_ok.mp hsame)
  push Not at hspaces
  exact ⟨rfl, (getVersion_eq_ok hget).2.trans hspaces.2.1.symm⟩

/-- What is read is the stored record, at its version. -/
theorem read_spec {space name deploymentUID : String}
    (h : read store space name deploymentUID = .ok op) :
    ∃ stored, store = some stored ∧ op.validate = none ∧
      op = { stored.operation with
        space := stored.space, resourceVersion := some stored.version, name := name } := by
  obtain ⟨stored, hget, h⟩ := Scan.bind_eq_ok.mp h
  obtain ⟨_, -, h⟩ := Scan.bind_eq_ok.mp h
  obtain ⟨_, -, h⟩ := Scan.bind_eq_ok.mp h
  obtain ⟨_, -, h⟩ := Scan.bind_eq_ok.mp h
  obtain ⟨_, hvalid, h⟩ := Scan.bind_eq_ok.mp h
  obtain ⟨_, -, h⟩ := Scan.bind_eq_ok.mp h
  obtain rfl := Except.ok.inj h
  exact ⟨stored, (get_eq_ok hget).1, refuse_eq_ok.mp hvalid, rfl⟩

theorem delete_spec {store' : ElasticStore} (h : delete store op = .ok store') : store' = none := by
  obtain ⟨_, -, h⟩ := Scan.bind_eq_ok.mp h
  obtain ⟨_, -, h⟩ := Scan.bind_eq_ok.mp h
  obtain ⟨_, -, h⟩ := Scan.bind_eq_ok.mp h
  split at h
  · exact (Except.ok.inj h).symm
  · cases h

theorem create_spec (h : create store op = .ok stored) :
    stored.operation = op ∧ stored.space = op.space := by
  obtain ⟨_, -, h⟩ := Scan.bind_eq_ok.mp h
  split at h
  · cases h
  · obtain rfl := Except.ok.inj h
    exact ⟨rfl, rfl⟩

end ElasticStore

end GpuStack
