import GpuStack.Elastic.Capture
import GpuStack.Elastic.Resize

/-!
# Elastic/Reconcile — the passes as they are made

`reconcile` is one pass over a stored record: what it reads decides between the ordinary pass, the
retirement of an unsent record whose members were replaced, and the reconstruction of a record of an
older generation.  Every such pass is the beginning of an `ElasticPass` (`reconcile_refines`), so what
holds of those holds of the deployment's own runs.

A narrowing that was commanded is reported as completed only by a pass that has seen every captured
worker gone (`elastic_workers_released_with_every_proof`).  One that was never sent is retired as
completed without that, when its members were replaced
(`unsent_narrowing_completed_unreleased`).
-/

namespace GpuStack

open List

/-! ## What a pass reads -/

/-- What the runtime and the engine show at a width: the effective width, whether every rank serves, the
registered members, the actors, and the Pod of each rank. -/
structure EngineView where
  effective : ElasticLayer := {}
  proven : Bool := false
  registered : ElasticLayer := {}
  actorsComplete : Bool := false
  actorFree : AList fun _ : String => Bool := ∅
  ranks : AList fun _ : ℕ => String := ∅

/-- Everything one pass reads of the deployment and around it. -/
structure ReconcileReads where
  space : String
  name : String
  uid : String
  generation : ℤ
  width : ℤ
  pods : List RuntimePod
  admitted : ElasticLayer
  allocated : ElasticLayer
  view : ℤ → EngineView
  scaling : Except String Bool
  withdrawal : Bool
  boot : Option ℤ
  prior : Option (String × ℤ)
  capture : CaptureReads
  delete : DeleteReads
  release : ReleaseReads
  identityHolds : Bool
  now : ℤ
  answer : ScaleAnswer
  failedAt : ℤ

/-- A layer is known to hold a width. -/
def ElasticLayer.holds (layer : ElasticLayer) (width : ℤ) : Bool :=
  layer.known ∧ width ≤ layer.value

/-- The bounds of a width. -/
def elasticWidthMin : ℤ := 2

def elasticWidthMax : ℤ := 64

/-- Walk the live Pods: each must be seated and running, with one master and one head among them. -/
def runtimeMembersFrom (master : Option RuntimePod) (heads : ℕ) :
    List RuntimePod → Except String RuntimePod
  | [] =>
    match master with
    | none => .error "reserved master or CPU head is not ready for observation"
    | some m =>
      if heads ≠ 1 ∨ m.ip = "" then .error "reserved master or CPU head is not ready for observation"
      else .ok m
  | pod :: pods =>
    if ¬ pod.head ∧ pod.ordinal = none then .error "GPU member has no ordinal"
    else if ¬ pod.head ∧ pod.ordinal = some 0 ∧ master.isSome then .error "multiple reserved masters"
    else if ¬ pod.running then
      .error ("member " ++ pod.name ++ " has no running engine identity")
    else runtimeMembersFrom (if ¬ pod.head ∧ pod.ordinal = some 0 then some pod else master)
      (if pod.head then heads + 1 else heads) pods

/-- The master of the live Pods, if they can be observed. -/
def elasticRuntimeMembers (pods : List RuntimePod) : Except String RuntimePod :=
  runtimeMembersFrom none 0 pods

namespace ReconcileReads

variable (x : ReconcileReads)

/-- The UID that lives under a name. -/
def liveUID (name : String) : String :=
  ((x.pods.reverse.find? fun pod => pod.name = name).map (·.uid)).getD ""

/-- Some captured identity is still the Pod it was recorded against. -/
def elasticOperationMemberSurvives (op : ElasticOperation) : Bool :=
  (op.members ++ [op.master, op.head]).any fun member =>
    member.uid ≠ "" ∧ x.liveUID member.name = member.uid

/-- Every captured identity is; a worker of a released record may be gone. -/
def elasticOperationMembersMatch (op : ElasticOperation) : Bool :=
  (op.members ++ [op.master, op.head]).all fun member =>
    member.uid ≠ "" ∧ (x.liveUID member.name = member.uid ∨
      op.state = .released ∧ member ∈ op.workers ∧ x.liveUID member.name = "")

def headIdentity : ElasticCapturedIdentity :=
  ((x.pods.reverse.find? (·.head)).map (·.identity)).getD {}

def masterIdentity : ElasticCapturedIdentity :=
  ((x.pods.reverse.find? fun pod => ¬ pod.head ∧ pod.ordinal = some 0).map (·.identity)).getD {}

/-- The members that hold accelerators. -/
def gpuMembers : List RuntimePod := x.pods.filter (¬ ·.head)

/-! ## A new operation -/

/-- The width the deployment is known by: the last stable one of this master, or the one it booted
at. -/
def knownWidth (master : RuntimePod) (boot : ℤ) : ℤ :=
  match x.prior with
  | some (masterUID, stable) =>
    if masterUID = master.uid ∧ 2 ≤ stable ∧ stable ≤ 64 then stable else boot
  | none => boot

/-- The width that is proven: the known one, or a wider one that is admitted. -/
def provenWidth (known : ℤ) : Option ℤ :=
  if (x.view known).proven then some known
  else if x.admitted.known ∧ known < x.admitted.value ∧ (x.view x.admitted.value).proven then
    some x.admitted.value
  else none

/-- The Pods at the ranks a narrowing gives up. -/
def retiring (ranks : AList fun _ : ℕ => String) (target : ℤ) : List RuntimePod :=
  x.pods.flatMap fun pod =>
    (ranks.entries.filter fun r => target ≤ r.1 ∧ r.2 = pod.uid).map fun _ => pod

/-- The record of a resize that is not yet captured. -/
def operation (master : RuntimePod) (width : ℤ) : ElasticOperation where
  name := x.name
  deploymentUID := x.uid
  space := x.space
  generation := x.generation
  width := ⟨width, x.width⟩
  master := master.identity
  head := x.headIdentity
  members := x.gpuMembers.map (·.identity)

/-- **The record a pass without one writes**, or why it writes none. -/
def newOperation : Except String ElasticOperation := do
  let master ← elasticRuntimeMembers x.pods
  match x.boot with
  | none => .error "master bootstrap width is unknown"
  | some boot =>
    match x.provenWidth (x.knownWidth master boot) with
    | none => .error "the live world cannot be proven"
    | some width =>
      if width = x.width then .error "native ranks and forwards agree"
      else if width < x.width then
        if x.admitted.holds x.width ∧ x.allocated.holds x.width
            ∧ (x.view width).registered.holds x.width then
          .ok (x.operation master width)
        else .error "new members are not admitted, allocated and registered"
      else
        let retiring := x.retiring (x.view width).ranks x.width
        if (retiring.length : ℤ) ≠ width - x.width then
          .error "retirement rank identities are incomplete"
        else do
          let release ← captureModelDeploymentElasticRelease x.capture x.space x.uid x.generation
            retiring
          return { x.operation master width with
            workers := retiring.map (·.identity), release := some release }

/-! ## The ordinary pass -/

/-- The width a record is observed at. -/
def observedWidth (op : ElasticOperation) : ℤ :=
  if op.sentState then op.width.target else op.width.old

/-- The engine is asked whether it scales: the target world is proven, or a refusal stands. -/
def asksScaling (op : ElasticOperation) : Bool :=
  op.sentState ∧ ((x.view (observedWidth op)).proven ∨ op.scaleLastError ≠ "")

def nativeComplete (op : ElasticOperation) : Bool :=
  op.sentState ∧ (x.view (observedWidth op)).proven ∧ x.scaling.toOption = some false

/-- The facts of a pass. -/
def facts (op : ElasticOperation) (released : Bool) : ElasticFacts where
  deploymentUID := x.uid
  generation := x.generation
  desired := knownLayer x.width
  admitted := x.admitted
  admittedAllocation := x.allocated
  ray := (x.view (observedWidth op)).registered
  effective := (x.view (observedWidth op)).effective
  forwardProven := (x.view (observedWidth op)).proven
  actorMappingKnown := (x.view (observedWidth op)).actorsComplete
  actorFree := (x.view (observedWidth op)).actorFree
  nativeComplete := x.nativeComplete op
  scalingKnown := x.asksScaling op ∧ x.scaling.isOk
  scaling := x.asksScaling op ∧ x.scaling.toOption = some true
  withdrawalConfirmed := ¬ op.width.upward ∧ x.withdrawal
  releaseObserved := released

def removal (op : ElasticOperation) : Removal :=
  elasticDeleteCaptured op (x.view (observedWidth op)).actorFree x.delete

/-- What carrying the decision out is given. -/
def inputs (op : ElasticOperation) (released : Bool) : PassInputs where
  facts := x.facts op released
  identityHolds := x.identityHolds
  now := x.now
  answer := x.answer
  failedAt := x.failedAt
  removed := (x.removal op).workers
  reads := if released then some x.release else none

/-- Decide and carry out, unless the old world is not proven or the engine could not be asked. -/
def settle (op : ElasticOperation) (released : Bool) : List ElasticEffect :=
  if ¬ op.sentState ∧ ¬ (x.view (observedWidth op)).proven then []
  else if x.asksScaling op ∧ ¬ x.scaling.isOk then []
  else dispatch op (x.inputs op released)

/-- The captured release is seen on all three counts. -/
def releaseSeen (op : ElasticOperation) : Bool :=
  op.release.any fun record => (observeRelease x.release record).isNone

/-- **The pass over a record of the current generation.** -/
def ordinaryPass (op : ElasticOperation) : List ElasticEffect :=
  if ¬ op.width.upward ∧ ¬ x.withdrawal then []
  else if op.state = .released then
    if ¬ (x.nativeComplete op ∧ (x.view (observedWidth op)).actorsComplete) then []
    else (x.removal op).workers.map .deleteWorker ++
      if (x.removal op).failure = none ∧ x.releaseSeen op then x.settle op true else []
  else x.settle op false

/-! ## Recovery -/

/-- An unsent narrowing whose captured world is gone as a whole, with a replacement proven. -/
def unsentMemberDrift (op : ElasticOperation) : Bool :=
  op.state = .recorded ∧ ¬ op.commandSent ∧ ¬ op.width.upward ∧ x.width = op.width.target ∧
    ¬ x.elasticOperationMemberSurvives op ∧
    elasticWidthMin ≤ (x.pods.length : ℤ) - 1 ∧ (x.pods.length : ℤ) - 1 ≤ elasticWidthMax ∧
    x.admitted.known ∧ x.admitted.value = x.pods.length - 1 ∧
    x.allocated.known ∧ x.allocated.value = x.pods.length - 1 ∧
    (x.view (x.pods.length - 1)).proven

/-- The members beyond the old width of a widening that never happened. -/
def unranked (op : ElasticOperation) : List RuntimePod :=
  x.gpuMembers.filter fun pod => ¬ ∃ r ∈ (x.view op.width.old).ranks.entries, r.2 = pod.uid

/-- The record an interrupted widening is replaced by, which owes only a release. -/
def recoveredOperation (op : ElasticOperation) (release : RetirementRelease) : ElasticOperation where
  name := x.name
  deploymentUID := x.uid
  space := x.space
  generation := x.generation
  width := ⟨x.gpuMembers.length, op.width.old⟩
  workers := (x.unranked op).map (·.identity)
  master := x.masterIdentity
  head := x.headIdentity
  members := x.gpuMembers.map (·.identity)
  release := some release
  state := .released
  commandSent := true
  commandIntent := "recovered at already observed native width " ++ toString op.width.old

/-- A widening that was taken back before the engine moved. -/
def recoverUpscale (op : ElasticOperation) : List ElasticEffect :=
  if ¬ op.width.upward ∨ x.width ≠ op.width.old then []
  else if ¬ ((x.view op.width.old).proven ∧ (x.view op.width.old).actorsComplete
      ∧ x.scaling.toOption = some false) then []
  else if x.unranked op = [] then [.complete ⟨op, none⟩, .remove op]
  else if (x.gpuMembers.length : ℤ) ≤ op.width.old ∨ x.masterIdentity.uid = ""
      ∨ x.headIdentity.uid = "" then []
  else
    match captureModelDeploymentElasticRelease x.capture x.space x.uid x.generation
        (x.unranked op) with
    | .error _ => []
    | .ok release => [.recover op (x.recoveredOperation op release)]

/-- The current world proves the outcome of a record of an older generation. -/
def elasticGenerationExit (op : ElasticOperation) : Bool :=
  (x.view (observedWidth op)).proven ∧ x.scaling.toOption = some false ∧
    if ¬ op.sentState then x.width = op.width.target
    else (x.view (observedWidth op)).actorsComplete ∧
      if op.width.upward then x.admitted.holds op.width.target ∧ x.allocated.holds op.width.target
        ∧ (x.view (observedWidth op)).registered.holds op.width.target
      else op.lineage.any fun record => (observeRelease x.release record).isNone

/-- **The pass over a record of an older generation.** -/
def reconstructElasticGeneration (op : ElasticOperation) : List ElasticEffect :=
  if ¬ (x.view (observedWidth op)).proven then x.recoverUpscale op
  else if ¬ x.elasticGenerationExit op then []
  else if op.sentState then
    [.complete ⟨op, if op.width.upward then none else some x.release⟩, .remove op]
  else [.remove op]

/-- **One pass over what is stored.** -/
def reconcile (store : ElasticStore) : List ElasticEffect :=
  match elasticRuntimeMembers x.pods, store.read x.space x.name x.uid with
  | .ok _, .ok op =>
    if ¬ x.elasticOperationMembersMatch op then
      if x.unsentMemberDrift op then [.complete ⟨op, none⟩, .remove op]
      else if op.generation = x.generation ∨ x.elasticOperationMemberSurvives op then []
      else x.reconstructElasticGeneration op
    else if op.generation ≠ x.generation then x.reconstructElasticGeneration op
    else x.ordinaryPass op
  | _, _ => []

end ReconcileReads

/-! ## What a pass can do -/

/-- A completion that a pass may report of a record: a narrowing that was sent is seen released. -/
def Settled (x : ReconcileReads) (op : ElasticOperation) (c : Completion) : Prop :=
  c.operation = op ∧ (op.width.upward = false → op.commandSent = true →
    c.reads = some x.release ∧ x.releaseSeen op = true)

/-- **What a pass over a record does**: it removes workers and carries a decision out, up to some point;
or it retires the record; or it replaces an interrupted widening by the release it owes. -/
inductive Reconciled (x : ReconcileReads) (op : ElasticOperation) : List ElasticEffect → Prop
  | settles (removed : List ElasticCapturedIdentity) (released : Bool)
      (hseen : released = true → x.releaseSeen op = true) {es : List ElasticEffect}
      (hbegin : es <+: removed.map .deleteWorker ++ dispatch op (x.inputs op released)) :
      Reconciled x op es
  | retires (cs : List Completion) (hcs : ∀ c ∈ cs, Settled x op c) :
      Reconciled x op (cs.map .complete ++ [.remove op])
  | recovers (release : RetirementRelease) (hwide : op.width.old < x.gpuMembers.length)
      (hcapture : captureModelDeploymentElasticRelease x.capture x.space x.uid x.generation
        (x.unranked op) = .ok release) :
      Reconciled x op [.recover op (x.recoveredOperation op release)]

section Passes

variable {x : ReconcileReads} {op : ElasticOperation}

theorem Reconciled.holds : Reconciled x op [] :=
  .settles [] false nofun nil_prefix

theorem settle_begins (released : Bool) :
    x.settle op released <+: dispatch op (x.inputs op released) := by
  unfold ReconcileReads.settle
  split
  · exact nil_prefix
  split
  · exact nil_prefix
  · exact prefix_rfl

theorem ordinaryPass_reconciled : Reconciled x op (x.ordinaryPass op) := by
  unfold ReconcileReads.ordinaryPass
  split
  · exact .holds
  split
  · split
    · exact .holds
    · split
      · rename_i hgone
        exact .settles _ true (fun _ => hgone.2)
          (prefix_append_right_inj _ |>.mpr (settle_begins true))
      · refine .settles (x.removal op).workers false nofun ?_
        rw [append_nil]
        exact prefix_append ..
  · exact .settles [] false nofun (settle_begins false)

theorem recoverUpscale_reconciled : Reconciled x op (x.recoverUpscale op) := by
  unfold ReconcileReads.recoverUpscale
  split
  · exact .holds
  rename_i hup
  split
  · exact .holds
  split
  · refine .retires [⟨op, none⟩] fun c hc => ?_
    obtain rfl := mem_singleton.mp hc
    exact ⟨rfl, fun hdown => absurd hup (by simp [hdown])⟩
  split
  · exact .holds
  rename_i hwide
  split
  · exact .holds
  · rename_i release hcapture
    exact .recovers release (by omega) hcapture

/-- A narrowing of an older generation leaves by the release it captured. -/
theorem releaseSeen_of_exit (hexit : x.elasticGenerationExit op = true)
    (hsent : op.sentState = true) (hdown : op.width.upward = false) : x.releaseSeen op = true := by
  simp only [ReconcileReads.elasticGenerationExit, hsent, hdown, not_true_eq_false, if_false,
    Bool.false_eq_true, decide_eq_true_eq] at hexit
  have hseen := hexit.2.2.2
  rw [ElasticOperation.lineage, Option.any_filter] at hseen
  unfold ReconcileReads.releaseSeen
  cases hrelease : op.release with
  | none => simp [hrelease] at hseen
  | some record =>
    rw [hrelease, Option.any_some, Bool.and_eq_true] at hseen
    exact hseen.2

theorem reconstructElasticGeneration_reconciled :
    Reconciled x op (x.reconstructElasticGeneration op) := by
  unfold ReconcileReads.reconstructElasticGeneration
  split
  · exact recoverUpscale_reconciled
  split
  · exact .holds
  rename_i hexit
  split
  · rename_i hsent
    refine .retires [_] fun c hc => ?_
    obtain rfl := mem_singleton.mp hc
    refine ⟨rfl, fun hdown _ => ⟨by simp [hdown], ?_⟩⟩
    exact releaseSeen_of_exit (by simpa using hexit) hsent hdown
  · exact .retires [] (by simp)

/-- **A pass over what is stored holds, or does what a pass over the record can do.** -/
theorem reconcile_spec (store : ElasticStore) : x.reconcile store = [] ∨
    ∃ op, store.read x.space x.name x.uid = .ok op ∧ Reconciled x op (x.reconcile store) := by
  unfold ReconcileReads.reconcile
  split
  · rename_i op _ hread
    refine .inr ⟨op, hread, ?_⟩
    split
    · split
      · rename_i hdrift
        refine .retires [⟨op, none⟩] fun c hc => ?_
        obtain rfl := mem_singleton.mp hc
        simp only [ReconcileReads.unsentMemberDrift, decide_eq_true_eq] at hdrift
        exact ⟨rfl, fun _ hsent => absurd hsent hdrift.2.1⟩
      split
      · exact .holds
      · exact reconstructElasticGeneration_reconciled
    · split
      · exact reconstructElasticGeneration_reconciled
      · exact ordinaryPass_reconciled
  · exact .inl rfl

end Passes

/-! ## The deployment's runs -/

/-- The passes over a stored record. -/
def Reconciles (w : ElasticWorld) (es : List ElasticEffect) : Prop :=
  ∃ x : ReconcileReads, es = x.reconcile w.stored

/-- The world once a pass without a record has stored a new one. -/
def Opened (w : ElasticWorld) : Prop :=
  ∃ (x : ReconcileReads) (op : ElasticOperation) (stored : StoredRecord),
    x.newOperation = .ok op ∧ ElasticStore.create none op = .ok stored ∧
    w = { stored := some stored }

/-- A new record is a resize that was not yet commanded, and if it narrows it carries the release of
the workers it gives up. -/
theorem newOperation_spec {x : ReconcileReads} {op : ElasticOperation}
    (h : x.newOperation = .ok op) :
    FreshOperation op ∧ (op.width.upward = false →
      ∃ record, op.release = some record ∧ record.Covers op.space op.workers) := by
  obtain ⟨master, -, h⟩ := Scan.bind_eq_ok.mp h
  split at h
  · cases h
  split at h
  · cases h
  rename_i width _
  split at h
  · cases h
  split at h
  · rename_i hup
    split at h
    · obtain rfl := Except.ok.inj h
      refine ⟨⟨rfl, rfl, rfl, rfl⟩, fun hdown => ?_⟩
      have hwider : (x.operation master width).width.upward = true := decide_eq_true hup
      exact absurd hwider (by simp [hdown])
    · cases h
  · dsimp only at h
    split at h
    · cases h
    · obtain ⟨release, hcapture, h⟩ := Scan.bind_eq_ok.mp h
      obtain rfl := Except.ok.inj h
      exact ⟨⟨rfl, rfl, rfl, rfl⟩, fun _ => ⟨release, rfl, covers_of_capture hcapture⟩⟩

/-- A record that narrows carries the release of its workers. -/
def CarriesRelease (stored : StoredRecord) : Prop :=
  stored.operation.width.upward = false → ∃ record, stored.operation.release = some record ∧
    record.Covers stored.space stored.operation.workers

/-- Every captured worker was seen gone when the completion was reported. -/
def Completion.SeenReleased (c : Completion) : Prop :=
  ∃ reads record, c.reads = some reads ∧ c.operation.release = some record ∧
    ∀ worker ∈ c.operation.workers, WorkerReleased reads record c.operation.space worker

/-- The invariant of the deployment's runs. -/
structure Returned (w : ElasticWorld) : Prop where
  carries : ∀ stored, w.stored = some stored → CarriesRelease stored
  completed : ∀ c ∈ w.completed, c.operation.width.upward = false →
    c.operation.commandSent = true → c.SeenReleased

section Steps

variable {w w' : ElasticWorld} {x : ReconcileReads} {op : ElasticOperation}

/-- **One effect keeps the invariant**, if what it completes is seen released and what it puts in the
place of the record carries its release. -/
theorem Returned.perform (h : Returned w) {e : ElasticEffect} (hstep : w.perform e = some w')
    (hcomplete : ∀ c, e = .complete c → c.operation.width.upward = false →
      c.operation.commandSent = true → c.SeenReleased)
    (hrecover : ∀ current recovered, e = .recover current recovered →
      ∃ record, recovered.release = some record ∧
        record.Covers recovered.space recovered.workers) : Returned w' := by
  cases e with
  | update op =>
    obtain ⟨stored, hstored, hdrift, rfl⟩ := perform_update hstep
    refine ⟨fun _ heq hdown => ?_, h.completed⟩
    obtain rfl := Option.some.inj heq
    obtain ⟨hwidth, hworkers, hrelease⟩ := ElasticOperation.same_of_envelopeDrift hdrift
    simp only [hwidth, hworkers, hrelease] at hdown ⊢
    exact h.carries stored hstored hdown
  | scale width facts answer =>
    obtain rfl := Option.some.inj hstep
    exact ⟨h.carries, h.completed⟩
  | deleteWorker worker =>
    obtain rfl := Option.some.inj hstep
    exact ⟨h.carries, h.completed⟩
  | complete c =>
    obtain rfl := Option.some.inj hstep
    exact ⟨h.carries, forall_mem_cons.mpr ⟨hcomplete c rfl, h.completed⟩⟩
  | remove op =>
    obtain rfl := perform_remove hstep
    exact ⟨fun _ heq => absurd heq (by simp), h.completed⟩
  | recover current recovered =>
    obtain ⟨stored, ⟨rfl, hspace⟩, rfl⟩ := perform_recover hstep
    refine ⟨fun _ heq _ => ?_, h.completed⟩
    obtain rfl := Option.some.inj heq
    rw [hspace]
    exact hrecover _ _ rfl

/-- A seen release is one of the record, and was observed. -/
theorem exists_of_releaseSeen (h : x.releaseSeen op = true) :
    ∃ record, op.release = some record ∧ observeRelease x.release record = none := by
  unfold ReconcileReads.releaseSeen at h
  cases hrelease : op.release with
  | none => simp [hrelease] at h
  | some record => exact ⟨record, rfl, by simpa [hrelease] using h⟩

/-- A seen release of what is stored is the release of each of its workers. -/
theorem Returned.seenReleased (h : Returned w) {space name uid : String}
    (hread : w.stored.read space name uid = .ok op) (hdown : op.width.upward = false)
    (hseen : x.releaseSeen op = true) : Completion.SeenReleased ⟨op, some x.release⟩ := by
  obtain ⟨stored, hstored, -, rfl⟩ := ElasticStore.read_spec hread
  obtain ⟨record, hrecord, hcovers⟩ := h.carries stored hstored hdown
  obtain ⟨record', hrecord', hobserved⟩ := exists_of_releaseSeen hseen
  obtain rfl := Option.some.inj (hrecord.symm.trans hrecord')
  exact ⟨x.release, record, rfl, hrecord, fun _ hworker => released_of_observed hcovers hobserved hworker⟩

/-- What a pass completes is seen released. -/
theorem Returned.complete_of_reconciled (h : Returned w) {space name uid : String}
    (hread : w.stored.read space name uid = .ok op) {es : List ElasticEffect}
    (hpass : Reconciled x op es) {c : Completion} (hc : .complete c ∈ es)
    (hdown : c.operation.width.upward = false) (hsent : c.operation.commandSent = true) :
    c.SeenReleased := by
  cases hpass with
  | settles removed released hseen hbegin =>
    have hmem := hbegin.subset hc
    simp only [mem_append, mem_map, reduceCtorEq, and_false, exists_false, false_or] at hmem
    cases mem_dispatch hmem with
    | complete hobserved =>
      obtain rfl : released = true := hobserved hdown
      exact h.seenReleased hread hdown (hseen rfl)
  | retires cs hcs =>
    have hmem : c ∈ cs := by simpa using hc
    obtain ⟨rfl, hreads⟩ := hcs c hmem
    obtain ⟨hsome, hseen⟩ := hreads hdown hsent
    obtain ⟨reads, record, hrest⟩ := h.seenReleased hread hdown hseen
    exact ⟨reads, record, hsome.trans hrest.1, hrest.2⟩
  | recovers release hwide hcapture => simp at hc

/-- What a pass puts in the place of a record carries the release of its workers. -/
theorem recover_of_reconciled {es : List ElasticEffect} (hpass : Reconciled x op es)
    {current recovered : ElasticOperation} (h : .recover current recovered ∈ es) :
    ∃ record, recovered.release = some record ∧
      record.Covers recovered.space recovered.workers := by
  cases hpass with
  | settles removed released hseen hbegin =>
    have hmem := hbegin.subset h
    simp only [mem_append, mem_map, reduceCtorEq, and_false, exists_false, false_or] at hmem
    cases mem_dispatch hmem
  | retires cs hcs => simp at h
  | recovers release hwide hcapture =>
    obtain ⟨-, rfl⟩ := ElasticEffect.recover.inj (mem_singleton.mp h)
    exact ⟨release, rfl, covers_of_capture hcapture⟩

/-- **A pass keeps the invariant**, wherever it is cut. -/
theorem Returned.pass (h : Returned w) {es : List ElasticEffect} (hpass : Reconciles w es) :
    Interrupt.Safe ElasticWorld.perform Returned es w := by
  obtain ⟨x, rfl⟩ := hpass
  obtain hholds | ⟨op, hread, hpass⟩ := reconcile_spec (x := x) w.stored
  · rw [hholds]
    exact h
  · refine Interrupt.Safe.of_forall h fun e he v v' hv hstep => hv.perform hstep ?_ ?_
    · rintro c rfl
      exact h.complete_of_reconciled hread hpass he
    · rintro current recovered rfl
      exact recover_of_reconciled hpass he

theorem Returned.of_opened (h : Opened w) : Returned w := by
  obtain ⟨x, op, stored, hnew, hcreate, rfl⟩ := h
  obtain ⟨rfl, hspace⟩ := ElasticStore.create_spec hcreate
  refine ⟨fun _ heq hdown => ?_, by simp⟩
  obtain rfl := Option.some.inj heq
  rw [hspace]
  exact (newOperation_spec hnew).2 hdown

end Steps

/-- **Workers go only with every proof in hand.**  A decision to release is one of a narrowing that was
commanded, with the engine done at the target width, every rank serving, the withdrawal confirmed, and
each captured worker known to hold no actor and not to be the master.  In every state of every run of the
deployment, a narrowing that was commanded has been reported as completed only by a pass that saw each
captured worker gone: its Pod absent, its quota free, and the accelerators back. -/
theorem elastic_workers_released_with_every_proof :
    (∀ (op : ElasticOperation) (facts : ElasticFacts),
      (decideElasticOperation op facts).action = .release →
        op.width.target < op.width.old ∧ op.commandSent = true ∧ facts.nativeComplete = true ∧
        (facts.effective.known = true ∧ facts.effective.value = op.width.target) ∧
        facts.forwardProven = true ∧ facts.withdrawalConfirmed = true ∧
        ∀ worker ∈ op.workers,
          facts.actorFree.lookup worker.uid = some true ∧ worker.uid ≠ op.master.uid) ∧
    ∀ w, Interrupt.Reach ElasticWorld.perform Reconciles Opened w →
      ∀ c ∈ w.completed, c.operation.width.upward = false → c.operation.commandSent = true →
        c.SeenReleased := by
  refine ⟨fun op facts hrelease => ?_, fun w hreach => ?_⟩
  · have hdecides := decides op facts
    generalize decideElasticOperation op facts = d at hdecides hrelease
    cases hdecides with
    | waits hwaits hstate => simp [hrelease, ElasticAction.waits] at hwaits
    | requests hvalid hunsent => cases hrelease
    | retries haction => exact absurd (haction.symm.trans hrelease) (by simp)
    | completes haction => exact absurd (haction.symm.trans hrelease) (by simp)
    | releases haction hvalid hsent hdown hproofs =>
      have hle : op.width.target ≤ op.width.old := by simpa [ElasticWidth.upward] using hdown
      have hne := ElasticOperation.width_ne_of_validate hvalid
      refine ⟨by omega, ElasticOperation.sentState_of_validate hvalid ▸ hsent,
        hproofs.nativeComplete, hproofs.effective, hproofs.forwardProven,
        hproofs.withdrawalConfirmed, fun worker hworker => ?_⟩
      rw [← ElasticOperation.retractableWorkers_of_validate hvalid] at hworker
      exact (hproofs.actorFree worker hworker).symm
  · exact (hreach.invariant (fun _ => Returned.of_opened) fun _ _ hv hpass => hv.pass hpass).completed

/-! ### A deployment that narrows -/

/-- Three workers beside a head, with the UIDs given. -/
def fleet (head first second third : String) : List RuntimePod :=
  [{ name := "h", uid := head, head := true },
   { name := "m-0", uid := first, ordinal := some 0, ip := "10.0.0.1" },
   { name := "m-1", uid := second, ordinal := some 1 },
   { name := "m-2", uid := third, ordinal := some 2, claim := "c" }]

/-- The engine serves at a width, with the third worker free of actors. -/
def servesAt (width asked : ℤ) : EngineView :=
  if asked = width then
    { effective := knownLayer width
      proven := true
      registered := knownLayer 3
      actorsComplete := true
      actorFree := [⟨"p2", true⟩].toAList
      ranks := [⟨0, "p0"⟩, ⟨1, "p1"⟩, ⟨2, "p2"⟩].toAList }
  else {}

/-- The deployment wants two workers; the engine serves at a width, and the third worker reads as
given. -/
def narrowingReads (pods : List RuntimePod) (width : ℤ) (third : ReadAnswer PodRead) :
    ReconcileReads where
  space := "ns"
  name := "m"
  uid := "u"
  generation := 1
  width := 2
  pods := pods
  admitted := knownLayer 3
  allocated := knownLayer 3
  view := servesAt width
  scaling := .ok false
  withdrawal := true
  boot := some 3
  prior := none
  capture :=
    { member := fun _ => .found { uid := "p2", claim := "c", nodeName := "n" }
      workloads := .ok [{ name := "w", uid := "w2", owners := [{ uid := "p2", name := "m-2" }] }]
      admission := fun _ => none
      ledger := fun node => .ok ⟨node, node, "d", ""⟩ }
  delete := { deployment := .ok ("u", 1), pod := fun _ => third, workloads := .ok [] }
  release := { pod := fun _ _ => third, workloads := .ok [], node := fun _ => none }
  identityHolds := true
  now := 0
  answer := .accepted
  failedAt := 0

def thirdWorker : ReadAnswer PodRead := .found { uid := "p2", claim := "c" }

/-- The world once a narrowing from three workers to two was opened. -/
def narrowed : ElasticWorld where
  stored := ((narrowingReads (fleet "ph" "p0" "p1" "p2") 3 thirdWorker).newOperation.toOption).bind
    fun op => (ElasticStore.create none op).toOption

theorem narrowed_reached : Interrupt.Reach ElasticWorld.perform Reconciles Opened narrowed :=
  .start ⟨narrowingReads (fleet "ph" "p0" "p1" "p2") 3 thirdWorker, _, _, rfl, rfl, rfl⟩

/-- Commanded, served at two workers, and the third gone. -/
theorem narrowing_completed_released :
    ∃ w, Interrupt.Reach ElasticWorld.perform Reconciles Opened w ∧
      ∃ c ∈ w.completed, c.operation.width.upward = false ∧ c.operation.commandSent = true ∧
        c.SeenReleased := by
  have hcommanded := narrowed_reached.pass
    ⟨narrowingReads (fleet "ph" "p0" "p1" "p2") 3 thirdWorker, rfl⟩ 2
  have hreleased := hcommanded.pass
    ⟨narrowingReads (fleet "ph" "p0" "p1" "p2") 2 thirdWorker, rfl⟩ 2
  have hcompleted := hreleased.pass
    ⟨narrowingReads ((fleet "ph" "p0" "p1" "p2").take 3) 2 .notFound, rfl⟩ 2
  exact ⟨_, hcompleted, _, .head _, rfl, rfl,
    elastic_workers_released_with_every_proof.2 _ hcompleted _ (.head _) rfl rfl⟩

/-- The members of the unsent narrowing were all replaced, and the replacement serves at three. -/
theorem unsent_narrowing_completed_unreleased :
    ∃ w, Interrupt.Reach ElasticWorld.perform Reconciles Opened w ∧
      ∃ c ∈ w.completed, c.operation.width.upward = false ∧ ¬ c.SeenReleased := by
  have hretired := narrowed_reached.pass
    ⟨narrowingReads (fleet "qh" "q0" "q1" "q2") 3 thirdWorker, rfl⟩ 1
  refine ⟨_, hretired, _, .head _, rfl, ?_⟩
  rintro ⟨reads, record, hreads, -⟩
  cases hreads

end GpuStack
