import GpuStack.Scaler.Legal

/-!
# Scaler/Undo — what taking a decision back touches

A retraction and a restore write back a whole vector, the one that was in force before the decision that
is undone (`undo_restores_whole_vector`).  They therefore take back what every commit since has moved,
and not only what the undone commit had moved (`undo_reverts_other_commits`).
-/

namespace GpuStack

/-- A commit moves a role. -/
def Commit.Moved (c : Commit) (name : RoleName) : Prop := c.before.count name ≠ c.after.count name

instance (c : Commit) (name : RoleName) : Decidable (c.Moved name) := inferInstanceAs (Decidable (_ ≠ _))

/-- A commit takes another back. -/
def Commit.IsUndo (c : Commit) : Prop := c.kind ≠ .planned

instance (c : Commit) : Decidable c.IsUndo := inferInstanceAs (Decidable (_ ≠ _))

/-- An undo touches only roles that the undone commit moved and no commit since. -/
def Commit.TouchesOnly (c undone : Commit) (between : List Commit) : Prop :=
  ∀ name, c.Moved name → undone.Moved name ∧ ∀ m ∈ between, ¬ m.Moved name

namespace ScalerState

/-! ## What is in force -/

/-- The counts in force are those of the last commit, which replaced those of the one before it. -/
def InForce (start : ReplicaVector) : List Commit → ReplicaVector → Prop
  | [], v => v.count = start.count
  | c :: log, v => v.count = c.after.count ∧ InForce start log c.before

/-- **Roles that no commit has moved are as they were.** -/
theorem InForce.count_eq {start v : ReplicaVector} {between older : List Commit} {c : Commit}
    (h : InForce start (between ++ c :: older) v) {name : RoleName} (hc : ¬ c.Moved name)
    (hbetween : ∀ m ∈ between, ¬ m.Moved name) : v.count name = c.before.count name := by
  induction between generalizing v with
  | nil => exact (congrFun h.1 name).trans (not_not.mp hc).symm
  | cons m between ih =>
    obtain ⟨hm, hbetween⟩ := List.forall_mem_cons.mp hbetween
    rw [congrFun h.1 name, ← not_not.mp hm]
    exact ih h.2 hbetween

/-! ## What is on record -/

/-- A log holds a planned commit. -/
def Holds (log : List Commit) (P : Commit → Prop) : Prop :=
  ∃ between c older, log = between ++ c :: older ∧ c.kind = .planned ∧ P c

theorem Holds.append {log : List Commit} {P : Commit → Prop} (h : Holds log P) (newer : List Commit) :
    Holds (newer ++ log) P := by
  obtain ⟨between, c, older, rfl, hc⟩ := h
  exact ⟨newer ++ between, c, older, (List.append_assoc ..).symm, hc⟩

/-- The commit that opened a cohort. -/
def PendingCohort.Opened (cohort : PendingCohort) (c : Commit) : Prop :=
  c.before = cohort.baselineVector ∧ c.after = cohort.targetVector

/-- The commit that lowered a role to the ordinal on record. -/
def ScaleDownStatus.Lowered (record : ScaleDownStatus) (c : Commit) : Prop :=
  c.before = record.preScaleDownVector ∧ c.after.count record.role = record.ordinal ∧
    record.ordinal < c.before.count record.role

/-- What a run keeps about its log: the last vector is in force, and what is on record is of a commit
the log holds. -/
structure Logged (start : ScalerState) (log : List Commit) (st : ScalerState) : Prop where
  inForce : InForce start.md.vector log st.md.vector
  cohort : ∀ cohort, st.scaler.status.pendingCohort = some cohort →
    Covers st.md.names cohort.baselineVector ∧ Holds log (PendingCohort.Opened cohort)
  scaleDown : ∀ record, st.scaler.status.lastScaleDown = some record →
    Covers st.md.names record.preScaleDownVector ∧ Holds log (ScaleDownStatus.Lowered record)

variable {start st : ScalerState} {log : List Commit}

/-- A commit has a count for the target's roles and no others. -/
theorem Logged.covers (h : Logged start log st) {reads : PassReads} {c : Commit}
    (hc : st.commit reads = some c) : Covers st.md.names c.after := by
  cases (passed_plan st.scaler st.md reads).origin c hc with
  | retraction hcohort => exact (h.cohort _ hcohort).1
  | restore hrecord => exact (h.scaleDown _ hrecord).1
  | planned hspec heligible hconflict hplan =>
    exact (fits_planned heligible hconflict hplan).covers

theorem names_pass (st : ScalerState) (reads : PassReads) :
    (st.pass reads).md.names = st.md.names := by
  have hpassed := passed_plan st.scaler st.md reads
  cases hc : st.commit reads with
  | none => rw [ScalerState.pass, hpassed.idle hc]
  | some c =>
    obtain ⟨writer, hwritten⟩ := hpassed.written c hc
    rw [ScalerState.pass, hwritten]
    exact names_writeVector

/-- What a pass commits is in force after it. -/
theorem Logged.inForce_pass (h : Logged start log st) (reads : PassReads) :
    InForce start.md.vector ((st.commit reads).toList ++ log) (st.pass reads).md.vector := by
  have hpassed := passed_plan st.scaler st.md reads
  cases hc : st.commit reads with
  | none =>
    rw [ScalerState.pass, hpassed.idle hc]
    exact h.inForce
  | some c =>
    obtain ⟨writer, hwritten⟩ := hpassed.written c hc
    have hbefore : c.before = st.md.vector := by
      cases hpassed.origin c hc <;> rfl
    rw [ScalerState.pass, hwritten]
    refine ⟨funext fun name => ?_, hbefore ▸ h.inForce⟩
    rw [ReplicaVector.count, lookup_writeVector (h.covers hc) name, ReplicaVector.count]

/-- **A pass keeps it.** -/
theorem Logged.pass (h : Logged start log st) (reads : PassReads) :
    Logged start ((st.commit reads).toList ++ log) (st.pass reads) := by
  have hpassed := passed_plan st.scaler st.md reads
  have hcovers := covers_vector st.md
  refine ⟨h.inForce_pass reads, fun cohort hcohort => ?_, fun record hrecord => ?_⟩ <;>
    rw [names_pass]
  · obtain hold | ⟨heq, hcommit⟩ := hpassed.cohort cohort hcohort
    · exact ⟨(h.cohort cohort hold).1, (h.cohort cohort hold).2.append _⟩
    · rw [ScalerState.commit, hcommit, heq]
      exact ⟨hcovers, [], _, log, rfl, rfl, heq.symm, rfl⟩
  · obtain ⟨old, hold, hpre, hrole, hordinal⟩ | ⟨hpre, v, hcommit, hlowered⟩ :=
      hpassed.scaleDown record hrecord
    · obtain ⟨hold, hholds⟩ := h.scaleDown old hold
      unfold ScaleDownStatus.Lowered
      rw [hpre, hrole, hordinal]
      exact ⟨hold, hholds.append _⟩
    · rw [ScalerState.commit, hcommit, hpre]
      exact ⟨hcovers, [], _, log, rfl, rfl, hpre.symm, hlowered⟩

theorem Logged.run (hcohort : start.scaler.status.pendingCohort = none)
    (hscaleDown : start.scaler.status.lastScaleDown = none) (hrun : Run start log st) :
    Logged start log st := by
  induction hrun with
  | start =>
    exact ⟨rfl, fun _ h => absurd (hcohort.symm.trans h) (by simp),
      fun _ h => absurd (hscaleDown.symm.trans h) (by simp)⟩
  | pass _ reads ih => exact ih.pass reads
  | meanwhile _ _ _ hmd ih =>
    have hnames := names_eq_of_vector_eq hmd
    exact ⟨hmd ▸ ih.inForce, hnames ▸ ih.cohort, hnames ▸ ih.scaleDown⟩

/-- The commit on record that an undo takes back. -/
def Undoes (st : ScalerState) (c undone : Commit) : Prop :=
  (c.kind = .retraction ∧ ∃ cohort, st.scaler.status.pendingCohort = some cohort ∧
    PendingCohort.Opened cohort undone) ∨
  (c.kind = .restore ∧ ∃ record, st.scaler.status.lastScaleDown = some record ∧
    ScaleDownStatus.Lowered record undone)

/-- **An undo restores the whole vector of before the commit it undoes**: it leaves a role alone that
neither that commit nor one since has moved. -/
theorem undo_restores_whole_vector (hcohort : start.scaler.status.pendingCohort = none)
    (hscaleDown : start.scaler.status.lastScaleDown = none) (hrun : Run start log st)
    {reads : PassReads} {c : Commit} (hc : st.commit reads = some c) (hundo : c.IsUndo) :
    ∃ between undone older, log = between ++ undone :: older ∧ undone.kind = .planned ∧
      st.Undoes c undone ∧ c.before = st.md.vector ∧ c.after = undone.before ∧
      ∀ name, c.Moved name → undone.Moved name ∨ ∃ m ∈ between, m.Moved name := by
  have hlogged := Logged.run hcohort hscaleDown hrun
  have hholds : Holds log fun undone =>
      st.Undoes c undone ∧ c.before = st.md.vector ∧ c.after = undone.before := by
    cases (passed_plan st.scaler st.md reads).origin c hc with
    | retraction h =>
      obtain ⟨between, undone, older, hlog, hkind, hopened⟩ := (hlogged.cohort _ h).2
      exact ⟨between, undone, older, hlog, hkind, .inl ⟨rfl, _, h, hopened⟩, rfl, hopened.1.symm⟩
    | restore h =>
      obtain ⟨between, undone, older, hlog, hkind, hlowered⟩ := (hlogged.scaleDown _ h).2
      exact ⟨between, undone, older, hlog, hkind, .inr ⟨rfl, _, h, hlowered⟩, rfl, hlowered.1.symm⟩
    | planned => exact absurd rfl hundo
  obtain ⟨between, undone, older, rfl, hkind, hundoes, hbefore, hafter⟩ := hholds
  refine ⟨between, undone, older, rfl, hkind, hundoes, hbefore, hafter, fun name hmoved => ?_⟩
  by_contra hnone
  push Not at hnone
  refine hmoved ?_
  rw [hbefore, hafter]
  exact hlogged.inForce.count_eq hnone.1 hnone.2

/-! ## A commit in between -/

/-- Two roles that share no ratio, one to grow and one to shrink. -/
def loosePair : ScalerState where
  scaler :=
    { uid := "scaler", generation := 1
      spec :=
        { roles := [{ name := prefillRole, maxReplicas := 4 }, { name := decodeRole, maxReplicas := 4 }] }
      status := { term := 1 } }
  md :=
    { roles := [{ name := prefillRole, replicas := 1 }, { name := decodeRole, replicas := 2 }]
      binding := some ⟨"scaler", 1⟩
      nodup := by decide }

/-- A pass that wants these counts, and wanted one decode role all through the window. -/
def wants (now : ℤ) (prefill decode : ℤ) : PassReads where
  now := seconds now
  signal name :=
    { recommendation := { desiredReplicas := if name = prefillRole then prefill else decode } }
  history name := if name = decodeRole then [⟨1, seconds (now - 300)⟩] else []

/-- The target after its retirement of the removed decode role was aborted. -/
def withAborted (st : ScalerState) : ScalerState where
  scaler :=
    { st.scaler with
      generation := 1
      status := { st.scaler.status with term := 1 } }
  md := { st.md with retirement := some ⟨.aborted, decodeRole, 1⟩ }

/-- Prefill roles back to one. -/
def retracted : Commit :=
  ⟨.retraction, [(prefillRole, 2), (decodeRole, 2)], [(prefillRole, 1), (decodeRole, 2)]⟩

/-- A retraction that follows its commit. -/
theorem undo_of_last_commit :
    ((loosePair.pass (wants 0 2 2)).commit (wants 300 2 2) = some retracted ∧ retracted.IsUndo) ∧
    ∃ between undone older, (loosePair.commit (wants 0 2 2)).toList ++ [] = between ++ undone :: older ∧
      undone.kind = .planned ∧ (loosePair.pass (wants 0 2 2)).Undoes retracted undone ∧
      retracted.before = (loosePair.pass (wants 0 2 2)).md.vector ∧ retracted.after = undone.before ∧
      ∀ name, retracted.Moved name → undone.Moved name ∨ ∃ m ∈ between, m.Moved name :=
  have hc : (loosePair.pass (wants 0 2 2)).commit (wants 300 2 2) = some retracted := by decide +kernel
  have hundo : retracted.IsUndo := by decide +kernel
  ⟨⟨hc, hundo⟩, undo_restores_whole_vector rfl rfl (Run.start.pass (wants 0 2 2)) hc hundo⟩

/-- Prefill grows, decode shrinks, and the growth is not admitted. -/
theorem grown_then_shrunk : Run loosePair
    [⟨.planned, [(prefillRole, 2), (decodeRole, 2)], [(prefillRole, 2), (decodeRole, 1)]⟩,
      ⟨.planned, [(prefillRole, 1), (decodeRole, 2)], [(prefillRole, 2), (decodeRole, 2)]⟩]
    ((loosePair.pass (wants 0 2 2)).pass (wants 100 2 1)) := by
  have hfirst : loosePair.commit (wants 0 2 2) = some
      ⟨.planned, [(prefillRole, 1), (decodeRole, 2)], [(prefillRole, 2), (decodeRole, 2)]⟩ := by
    decide +kernel
  have hsecond : (loosePair.pass (wants 0 2 2)).commit (wants 100 2 1) = some
      ⟨.planned, [(prefillRole, 2), (decodeRole, 2)], [(prefillRole, 2), (decodeRole, 1)]⟩ := by
    decide +kernel
  have hrun := ((Run.start : Run loosePair [] loosePair).pass (wants 0 2 2)).pass (wants 100 2 1)
  rwa [hfirst, hsecond] at hrun

/-- Decode shrinks, prefill grows, and the retirement of the decode role is aborted. -/
theorem shrunk_then_grown : Run loosePair
    [⟨.planned, [(prefillRole, 1), (decodeRole, 1)], [(prefillRole, 2), (decodeRole, 1)]⟩,
      ⟨.planned, [(prefillRole, 1), (decodeRole, 2)], [(prefillRole, 1), (decodeRole, 1)]⟩]
    (withAborted ((loosePair.pass (wants 0 1 1)).pass (wants 100 2 1))) := by
  have hfirst : loosePair.commit (wants 0 1 1) = some
      ⟨.planned, [(prefillRole, 1), (decodeRole, 2)], [(prefillRole, 1), (decodeRole, 1)]⟩ := by
    decide +kernel
  have hsecond : (loosePair.pass (wants 0 1 1)).commit (wants 100 2 1) = some
      ⟨.planned, [(prefillRole, 1), (decodeRole, 1)], [(prefillRole, 2), (decodeRole, 1)]⟩ := by
    decide +kernel
  have hrun := ((Run.start : Run loosePair [] loosePair).pass (wants 0 1 1)).pass (wants 100 2 1)
  rw [hfirst, hsecond] at hrun
  exact hrun.meanwhile 1 1 rfl

/-- **A retraction and a restore take back what another commit has done in between**: the decode role
that was removed comes back, the prefill role that was added goes. -/
theorem undo_reverts_other_commits :
    (∃ (st : ScalerState) (reads : PassReads) (between : List Commit) (undone c : Commit),
      Run loosePair (between ++ [undone]) st ∧ st.commit reads = some c ∧ c.kind = .retraction ∧
      st.Undoes c undone ∧ ¬ c.TouchesOnly undone between) ∧
    ∃ (st : ScalerState) (reads : PassReads) (between : List Commit) (undone c : Commit),
      Run loosePair (between ++ [undone]) st ∧ st.commit reads = some c ∧ c.kind = .restore ∧
      st.Undoes c undone ∧ ¬ c.TouchesOnly undone between := by
  refine ⟨⟨_, wants 300 2 1, [_], _,
      ⟨.retraction, [(prefillRole, 2), (decodeRole, 1)], [(prefillRole, 1), (decodeRole, 2)]⟩,
      grown_then_shrunk, by decide +kernel, rfl, ?_, fun h => ?_⟩,
    ⟨_, wants 200 2 1, [_], _,
      ⟨.restore, [(prefillRole, 2), (decodeRole, 1)], [(prefillRole, 1), (decodeRole, 2)]⟩,
      shrunk_then_grown, by decide +kernel, rfl, ?_, fun h => ?_⟩⟩
  · refine .inl ⟨rfl, ⟨"scaler-1-0", 1, [(prefillRole, 1), (decodeRole, 2)],
      [(prefillRole, 2), (decodeRole, 2)], some 0⟩, by decide +kernel, rfl, rfl⟩
  · exact absurd (h decodeRole (by decide +kernel)).1 (by decide +kernel)
  · refine .inr ⟨rfl, ⟨decodeRole, 1, [(prefillRole, 1), (decodeRole, 2)], .committed, none, none⟩,
      by decide +kernel, rfl, by decide +kernel⟩
  · exact absurd (h prefillRole (by decide +kernel)).1 (by decide +kernel)

end ScalerState

end GpuStack
