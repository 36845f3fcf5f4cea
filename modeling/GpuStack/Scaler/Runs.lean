import GpuStack.Scaler.Plan

/-!
# Scaler/Runs — what a pass can do, and runs of passes

A pass commits the baseline of the cohort on record, the vector before the scale-down on record, or a
planned vector, and puts on record at most the vector it found in force (`passed_plan`).

In a run passes follow one another; in between everything but the counts may change, and so may the
term under which the scaler owns its target.
-/

namespace GpuStack

/-! ## Where a vector comes from -/

/-- What a commit of a pass can be. -/
inductive Origin (scaler : Scaler) (md : Deployment) (reads : PassReads) : Commit → Prop
  | retraction {cohort : PendingCohort} (h : scaler.status.pendingCohort = some cohort) :
    Origin scaler md reads ⟨.retraction, md.vector, cohort.baselineVector⟩
  | restore {record : ScaleDownStatus} (h : scaler.status.lastScaleDown = some record) :
    Origin scaler md reads ⟨.restore, md.vector, record.preScaleDownVector⟩
  | planned {planner : Scaler} {v : ReplicaVector} {rebalance : Option RebalanceStatus}
    (hspec : planner.spec = scaler.spec) (heligible : targetRolesEligible planner.spec md = true)
    (hconflict : currentVectorConflict planner.spec md.roles md.vector = none)
    (h : planRebalance planner md
      (tabulate md.names (constraintInput planner md reads).solveConstraints.replicas) reads
        = some (v, rebalance)) :
    Origin scaler md reads ⟨.planned, md.vector, v⟩

/-- **What a pass leaves**: a commit that is written, and a record of what was on record or of the
vector the commit replaced. -/
structure Passed (scaler : Scaler) (md : Deployment) (reads : PassReads) (o : PassOutcome) : Prop where
  origin : ∀ c, o.commit = some c → Origin scaler md reads c
  idle : o.commit = none → o.md = md
  written : ∀ c, o.commit = some c →
    ∃ writer, o.md = writeVector writer md c.after md.vector reads.now
  cohort : ∀ cohort, o.status.pendingCohort = some cohort →
    scaler.status.pendingCohort = some cohort ∨
      cohort.baselineVector = md.vector ∧ o.commit = some ⟨.planned, md.vector, cohort.targetVector⟩
  scaleDown : ∀ record, o.status.lastScaleDown = some record →
    (∃ old, scaler.status.lastScaleDown = some old ∧
      record.preScaleDownVector = old.preScaleDownVector ∧ record.role = old.role ∧
      record.ordinal = old.ordinal) ∨
    record.preScaleDownVector = md.vector ∧ ∃ v, o.commit = some ⟨.planned, md.vector, v⟩ ∧
      v.count record.role = record.ordinal ∧ record.ordinal < md.vector.count record.role

/-- A status holds no other undoable decision than an earlier one did. -/
structure Carried (before after : ScalerStatus) : Prop where
  cohort : ∀ cohort, after.pendingCohort = some cohort → before.pendingCohort = some cohort
  scaleDown : ∀ record, after.lastScaleDown = some record → before.lastScaleDown = some record

theorem Carried.rfl (status : ScalerStatus) : Carried status status := ⟨fun _ => id, fun _ => id⟩

theorem Carried.of_eq {before after : ScalerStatus} (hcohort : after.pendingCohort = before.pendingCohort)
    (hscaleDown : after.lastScaleDown = before.lastScaleDown) : Carried before after :=
  ⟨fun _ h => hcohort ▸ h, fun _ h => hscaleDown ▸ h⟩

theorem Carried.trans {a b c : ScalerStatus} (h : Carried a b) (h' : Carried b c) : Carried a c :=
  ⟨fun _ hc => h.cohort _ (h'.cohort _ hc), fun _ hc => h.scaleDown _ (h'.scaleDown _ hc)⟩

variable {scaler planner : Scaler} {md : Deployment} {reads : PassReads}

theorem carried_stored {after : ScalerStatus} (h : Carried scaler.status after) :
    Carried scaler.status (stored reads scaler.status after) := by
  unfold stored
  split
  · exact h
  · exact .rfl _

variable {status : ScalerStatus}

/-- A pass that commits nothing. -/
theorem Passed.of_idle (h : Carried scaler.status status) :
    Passed scaler md reads ⟨status, md, none⟩ where
  origin _ hc := absurd hc (by simp)
  idle _ := rfl
  written _ hc := absurd hc (by simp)
  cohort _ hc := .inl (h.cohort _ hc)
  scaleDown _ hr := .inl ⟨_, h.scaleDown _ hr, rfl, rfl, rfl⟩

/-- The outcome of a write, if it is lost or lands. -/
theorem Passed.of_stored {md' : Deployment} {commit : Option Commit}
    (hold : Passed scaler md reads ⟨scaler.status, md', commit⟩)
    (hnew : Passed scaler md reads ⟨status, md', commit⟩) :
    Passed scaler md reads ⟨stored reads scaler.status status, md', commit⟩ := by
  unfold stored
  split
  · exact hnew
  · exact hold

/-- A commit beside a record that has nothing new. -/
theorem Passed.of_commit {c : Commit} (writer : Scaler)
    (horigin : Origin scaler md reads c) (h : Carried scaler.status status) :
    Passed scaler md reads ⟨status, writeVector writer md c.after md.vector reads.now, some c⟩ where
  origin _ hc := Option.some.inj hc ▸ horigin
  idle hc := absurd hc (by simp)
  written _ hc := Option.some.inj hc ▸ ⟨writer, rfl⟩
  cohort _ hc := .inl (h.cohort _ hc)
  scaleDown _ hr := .inl ⟨_, h.scaleDown _ hr, rfl, rfl, rfl⟩

/-! ## The stages of a pass -/

theorem passed_retractCohort {cohort : PendingCohort} (hcarried : Carried scaler.status planner.status)
    (hcohort : planner.status.pendingCohort = some cohort) :
    Passed scaler md reads (retractCohort scaler.status planner md reads cohort) := by
  have horigin : Origin scaler md reads ⟨.retraction, md.vector, cohort.baselineVector⟩ :=
    .retraction (hcarried.cohort _ hcohort)
  unfold retractCohort
  split_ifs
  · exact .of_stored (.of_commit _ horigin (.rfl _))
      (.of_commit _ horigin ⟨fun _ h => absurd h (by simp), fun _ h => hcarried.scaleDown _ h⟩)
  · exact .of_idle (.rfl _)
  · exact .of_idle (carried_stored hcarried)

theorem passed_restoreScaleDown {record : ScaleDownStatus}
    (hcarried : Carried scaler.status planner.status)
    (hrecord : planner.status.lastScaleDown = some record) :
    Passed scaler md reads (restoreScaleDown scaler.status planner md reads record) := by
  have horigin : Origin scaler md reads ⟨.restore, md.vector, record.preScaleDownVector⟩ :=
    .restore (hcarried.scaleDown _ hrecord)
  unfold restoreScaleDown
  split_ifs
  · refine .of_stored (.of_commit _ horigin (.rfl _)) ?_
    obtain ⟨horigin, hidle, hwritten, hcohort, -⟩ :=
      Passed.of_commit planner horigin hcarried
    refine ⟨horigin, hidle, hwritten, hcohort, fun after hafter => ?_⟩
    obtain rfl := Option.some.inj hafter
    exact .inl ⟨_, hcarried.scaleDown _ hrecord, rfl, rfl, rfl⟩
  · exact .of_idle (.rfl _)
  · exact .of_idle (carried_stored hcarried)

/-- The role that is found shrinks to the ordinal that is found. -/
theorem firstScaleDown_spec {before after : ReplicaVector} {role : RoleName} {ordinal : ℤ}
    (h : firstScaleDown before after = some (role, ordinal)) :
    after.count role = ordinal ∧ ordinal < before.count role := by
  obtain ⟨found, hfound, heq⟩ := Option.map_eq_some_iff.mp h
  obtain ⟨rfl, rfl⟩ := Prod.mk.inj heq
  exact ⟨rfl, by simpa using List.find?_some hfound⟩

theorem passed_commitPlanned {v : ReplicaVector}
    (horigin : Origin scaler md reads ⟨.planned, md.vector, v⟩)
    (hcarried : Carried scaler.status planner.status) :
    Passed scaler md reads (commitPlanned scaler.status planner md reads v) := by
  have hobserved : Carried scaler.status
      { planner.status with observedGeneration := planner.generation } :=
    hcarried.trans (.of_eq rfl rfl)
  unfold commitPlanned
  split_ifs
  · refine .of_stored (.of_commit _ horigin (.rfl _)) ?_
    obtain ⟨horigin, hidle, hwritten, -, -⟩ :=
      Passed.of_commit planner horigin hcarried
    refine ⟨horigin, hidle, hwritten, fun cohort hcohort => ?_, fun record hrecord => ?_⟩
    · dsimp only [scaledStatus] at hcohort
      split_ifs at hcohort
      · obtain rfl := Option.some.inj hcohort
        exact .inr ⟨rfl, rfl⟩
      · exact .inl (hcarried.cohort _ hcohort)
    · dsimp only [scaledStatus] at hrecord
      split at hrecord
      · rename_i role ordinal hfirst
        obtain rfl := Option.some.inj hrecord
        exact .inr ⟨rfl, v, rfl, firstScaleDown_spec hfirst⟩
      · exact .inl ⟨_, hcarried.scaleDown _ hrecord, rfl, rfl, rfl⟩
  · exact .of_idle (.rfl _)
  · exact .of_idle (carried_stored hobserved)
  · exact .of_idle (carried_stored hobserved)
  · exact .of_idle (carried_stored hobserved)

theorem passed_replan (hspec : planner.spec = scaler.spec)
    (hcarried : Carried scaler.status planner.status) :
    Passed scaler md reads (replan scaler.status planner md reads) := by
  have hobserved : Carried scaler.status
      { planner.status with observedGeneration := planner.generation } :=
    hcarried.trans (.of_eq rfl rfl)
  unfold replan
  split_ifs with hgate
  · exact .of_idle (carried_stored hobserved)
  · push Not at hgate
    obtain ⟨-, heligible, hconflict⟩ := hgate
    split
    · exact .of_idle (.rfl _)
    · rename_i v rebalance hplan
      refine passed_commitPlanned (.planned hspec heligible hconflict hplan) ?_
      exact hcarried.trans (.of_eq rfl rfl)
  · exact .of_idle (.rfl _)

theorem passed_afterCohort (hspec : planner.spec = scaler.spec)
    (hcarried : Carried scaler.status planner.status) :
    Passed scaler md reads (afterCohort scaler.status planner md reads) := by
  unfold afterCohort
  split
  · rename_i record hdue
    exact passed_restoreScaleDown hcarried (Option.filter_eq_some_iff.mp hdue).1
  · exact passed_replan hspec hcarried

theorem status_recoverDecision : Carried scaler.status (recoverDecision scaler md) := by
  unfold recoverDecision
  split
  · exact .rfl _
  · split
    · exact .rfl _
    · exact .of_eq rfl rfl

/-- **What a pass can do.** -/
theorem passed_plan (scaler : Scaler) (md : Deployment) (reads : PassReads) :
    Passed scaler md reads (plan scaler md reads) := by
  have hbegin : Carried scaler.status (beginPass scaler md).status :=
    status_recoverDecision.trans (.of_eq rfl rfl)
  unfold plan
  split_ifs
  · split
    · exact passed_afterCohort rfl hbegin
    · rename_i cohort hcohort
      split
      · exact passed_afterCohort rfl hbegin
      · refine passed_afterCohort rfl (hbegin.trans ⟨fun _ h => absurd h (by simp), fun _ => id⟩)
      · exact passed_retractCohort hbegin hcohort
  · exact .of_idle (.rfl _)

/-! ## Runs -/

/-- A scaler and its target. -/
structure ScalerState where
  scaler : Scaler
  md : Deployment

namespace ScalerState

/-- The state after a pass. -/
def pass (st : ScalerState) (reads : PassReads) : ScalerState where
  scaler := { st.scaler with status := (plan st.scaler st.md reads).status }
  md := (plan st.scaler st.md reads).md

/-- The commit of a pass. -/
def commit (st : ScalerState) (reads : PassReads) : Option Commit := (plan st.scaler st.md reads).commit

/-- **A run of passes**, with what was committed, the latest first. -/
inductive Run (start : ScalerState) : List Commit → ScalerState → Prop
  | start : Run start [] start
  | pass {log : List Commit} {st : ScalerState} (h : Run start log st) (reads : PassReads) :
    Run start ((st.commit reads).toList ++ log) (st.pass reads)
  | meanwhile {log : List Commit} {st : ScalerState} (h : Run start log st) (generation term : ℤ)
    {md : Deployment} (hmd : md.vector = st.md.vector) :
    Run start log
      { scaler := { st.scaler with generation, status := { st.scaler.status with term } }, md }

/-- The vectors on record that a pass may go back to. -/
def saved (st : ScalerState) : List ReplicaVector :=
  (st.scaler.status.pendingCohort.map (·.baselineVector)).toList ++
    (st.scaler.status.lastScaleDown.map (·.preScaleDownVector)).toList

end ScalerState

/-- The roles of a target are those of its vector. -/
theorem names_eq_of_vector_eq {md md' : Deployment} (h : md.vector = md'.vector) :
    md.names = md'.names := by
  have hnames : ∀ md : Deployment, md.names = md.vector.map (·.1) := fun md => by
    simp [Deployment.names, Deployment.vector, Function.comp_def]
  rw [hnames, hnames, h]

theorem names_writeVector {v baseline : ReplicaVector} {now : ℤ} :
    (writeVector scaler md v baseline now).names = md.names := by
  simp [Deployment.names, writeVector, Function.comp_def]

end GpuStack
