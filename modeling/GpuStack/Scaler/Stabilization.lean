import GpuStack.Scaler.Legal

/-!
# Scaler/Stabilization — what the shrink window remembers

Every evaluation records what it recommends for a role and keeps the history of a window, but never more
than `maxStabilizationSamples` samples: then only the first and the last ones.  A recommendation that is
dropped that way no longer holds a role up (`dropped_peak_is_forgotten`).

As long as fewer evaluations fall into a window, a role that the solver lowers stays at or above every
recommendation of the window (`lowered_stays_above_window`).
-/

namespace GpuStack

open List

/-! ## The floor -/

variable {s : StabilizationSample} {n : ℕ}

/-- **No floor is below what was recommended in the window**, up to the current count. -/
theorem le_windowFloor {spec : ScalerSpec} {history : List StabilizationSample} {now current : ℤ}
    (hs : s ∈ history) (hold : now - scaleDownWindow spec ≤ s.timestamp) (hnow : s.timestamp ≤ now) :
    min current s.replicas ≤ windowFloor spec history now current := by
  unfold windowFloor
  split
  · exact (min_le_left _ _).trans (le_max_right _ _)
  split
  · rename_i m hm
    have hle : s.replicas ≤ m := by
      refine (max?_eq_some_iff.mp hm).2 _ (mem_map_of_mem (mem_filter.mpr ⟨hs, ?_⟩))
      exact decide_eq_true ⟨hold, hnow⟩
    split
    · exact (min_le_left _ _).trans (le_max_right _ _)
    · exact (min_le_min_left _ hle).trans (le_max_right _ _)
  · rename_i hnone
    have hempty := map_eq_nil_iff.mp (max?_eq_none_iff.mp hnone)
    exact absurd (mem_filter.mpr ⟨hs, decide_eq_true ⟨hold, hnow⟩⟩)
      (hempty ▸ not_mem_nil)

theorem le_floor {input : ConstraintInput} {role : RoleState} {bound : RoleBounds}
    {history : List StabilizationSample} (hmin : bound.minimum ≤ role.currentReplicas)
    (hmax : role.currentReplicas ≤ bound.maxReplicas) (hs : s ∈ history)
    (hold : input.now - scaleDownWindow input.spec ≤ s.timestamp) (hnow : s.timestamp ≤ input.now) :
    min role.currentReplicas s.replicas ≤ (roleInterval input role bound history).floor := by
  have hwindow : min role.currentReplicas s.replicas
      ≤ windowFloor input.spec history input.now role.currentReplicas := le_windowFloor hs hold hnow
  unfold roleInterval
  rw [if_neg (not_lt.mpr (hmin.trans hmax)), clamp_eq_self hmin hmax]
  refine le_clamp_of_le ((min_le_left _ _).trans hmax) ?_
  split
  · exact (hwindow.trans (le_max_left _ _)).trans (le_max_left _ _)
  · exact hwindow.trans (le_max_left _ _)

/-! ## What is kept -/

section Prune

variable {history : List StabilizationSample} {now window : ℤ} {s : StabilizationSample}

/-- Samples in the order they were taken, one at a time. -/
def InOrder (history : List StabilizationSample) : Prop :=
  history.Pairwise fun s t => s.timestamp < t.timestamp

theorem InOrder.nodup (horder : InOrder history) : history.Nodup :=
  List.Pairwise.imp (fun hlt heq => hlt.ne (by rw [heq])) horder

/-- **A sample of the window is kept**, also one at its very beginning. -/
theorem mem_pruneByAge (horder : InOrder history) (hs : s ∈ history)
    (hold : now - window ≤ s.timestamp) (hnow : s.timestamp ≤ now) :
    s ∈ pruneByAge history now window := by
  unfold pruneByAge
  obtain hlt | heq := hold.lt_or_eq
  · exact mem_append_right _ (mem_filter.mpr ⟨hs, decide_eq_true ⟨hlt, hnow⟩⟩)
  · -- It is the last of those that are as old as the window.
    refine mem_append_left _ (Option.mem_toList.mpr ?_)
    obtain ⟨before, after, rfl⟩ := append_of_mem hs
    obtain ⟨-, hafter, -⟩ := pairwise_append.mp horder
    have hnone : after.filter (fun t => decide (t.timestamp ≤ now - window)) = [] := by
      refine filter_eq_nil_iff.mpr fun t ht => ?_
      have := (pairwise_cons.mp hafter).1 t ht
      simp only [decide_eq_true_eq]
      omega
    rw [filter_append, filter_cons_of_pos (by simp [heq]), hnone]
    simp

theorem pruneByAge_subset : pruneByAge history now window ⊆ history := by
  intro t ht
  obtain ht | ht := mem_append.mp ht
  · exact (mem_filter.mp (mem_of_getLast? (Option.mem_toList.mp ht))).1
  · exact (mem_filter.mp ht).1

/-- Pruning keeps the order. -/
theorem InOrder.pruneByAge (horder : InOrder history) : InOrder (pruneByAge history now window) := by
  refine pairwise_append.mpr ⟨?_, horder.filter _, fun a ha b hb => ?_⟩
  · cases (history.filter fun s => decide (s.timestamp ≤ now - window)).getLast? <;> simp
  · have hold := (mem_filter.mp (mem_of_getLast? (Option.mem_toList.mp ha))).2
    have hnew := (mem_filter.mp hb).2
    simp only [decide_eq_true_eq] at hold hnew
    omega

theorem pruneBySize_eq_self (h : history.length ≤ maxStabilizationSamples) :
    pruneBySize history = history := if_neg (not_lt.mpr h)

/-- A history with few samples of the window is pruned by age alone. -/
theorem pruneStabilizationHistory_eq (hwindow : 0 < window)
    (h : (history.filter fun s => now - window < s.timestamp).length < maxStabilizationSamples) :
    pruneStabilizationHistory history now window = pruneByAge history now window := by
  rw [pruneStabilizationHistory, if_pos hwindow]
  refine pruneBySize_eq_self ?_
  have hanchor : (history.filter fun s => decide (s.timestamp ≤ now - window)).getLast?.toList.length
      ≤ 1 := by
    cases (history.filter fun s => decide (s.timestamp ≤ now - window)).getLast? <;> simp
  have hrecent : (history.filter fun s => decide (now - window < s.timestamp ∧ s.timestamp ≤ now)).length
      ≤ (history.filter fun s => decide (now - window < s.timestamp)).length := by
    refine (monotone_filter_right _ fun s => ?_).length_le
    simp only [decide_eq_true_eq]
    exact And.left
  unfold pruneByAge
  rw [length_append]
  omega

end Prune

/-! ## Runs of evaluations -/

open ConstraintInput

/-- The sampler's histories after an evaluation. -/
def recordStabilizationHistory (histories : RoleName → List StabilizationSample) (input : ConstraintInput)
    (name : RoleName) : List StabilizationSample :=
  if name ∈ input.names then input.solveConstraints.stabilizationHistory name else histories name

/-- **A run of evaluations**, the latest first: each plans from a vector without conflict, later than the
one before, and is given what the sampler holds. -/
inductive Evaluated (spec : ScalerSpec) :
    (RoleName → List StabilizationSample) → List ConstraintInput → Prop
  | start : Evaluated spec (fun _ => []) []
  | evaluate {histories : RoleName → List StabilizationSample} {log : List ConstraintInput}
    (h : Evaluated spec histories log) {scaler : Scaler} {md : Deployment} {reads : PassReads}
    (hspec : scaler.spec = spec) (hconflict : currentVectorConflict scaler.spec md.roles md.vector = none)
    (hhistory : reads.history = histories) (hlater : ∀ input ∈ log, input.now < reads.now) :
    Evaluated spec (recordStabilizationHistory histories (constraintInput scaler md reads))
      (constraintInput scaler md reads :: log)

/-- **Fewer evaluations fall into a window than a history holds samples.** -/
def Sparse (spec : ScalerSpec) : List ConstraintInput → Prop
  | [] => True
  | input :: log =>
    ((input :: log).filter fun other =>
      input.now - largestStabilizationWindow spec < other.now).length < maxStabilizationSamples ∧
    Sparse spec log

/-- What the evaluations have recommended for a role, in order. -/
def recommendations (log : List ConstraintInput) (name : RoleName) : List StabilizationSample :=
  (log.reverse.filter (name ∈ ·.names)).map fun input => ⟨input.raw name, input.now⟩

theorem mem_recommendations {log : List ConstraintInput} {name : RoleName} :
    s ∈ recommendations log name ↔
      ∃ input ∈ log, name ∈ input.names ∧ s = ⟨input.raw name, input.now⟩ := by
  simp only [recommendations, mem_map, mem_filter, mem_reverse, decide_eq_true_eq]
  exact exists_congr fun input => by rw [and_assoc, eq_comm (a := s)]

theorem scaleDownWindow_le (spec : ScalerSpec) :
    scaleDownWindow spec ≤ largestStabilizationWindow spec := le_max_right _ _

theorem scaleDownWindow_pos (spec : ScalerSpec) : 0 < scaleDownWindow spec := by
  unfold scaleDownWindow
  split_ifs with h
  · decide
  · exact not_le.mp h

theorem stabilizationHistory_solve (input : ConstraintInput) (name : RoleName) :
    input.solveConstraints.stabilizationHistory name = (input.state name).elim [] input.history := by
  unfold solveConstraints
  split_ifs <;> rfl

/-- The state of a role holds what the pass was given. -/
theorem state_constraintInput {scaler : Scaler} {md : Deployment} {reads : PassReads} {name : RoleName}
    (hname : name ∈ (constraintInput scaler md reads).names) :
    ∃ role, (constraintInput scaler md reads).state name = some role ∧
      role.stabilizationHistory = reads.history name ∧
      role.rawRecommendedReplicas = (constraintInput scaler md reads).raw name ∧
      role.currentReplicas = (constraintInput scaler md reads).current name := by
  obtain ⟨role, hrole⟩ := Option.ne_none_iff_exists'.mp (mt state_eq_none.mp (not_not.mpr hname))
  obtain ⟨hmem, hrolename⟩ := state_spec hrole
  obtain ⟨deployed, -, rfl⟩ := mem_map.mp hmem
  refine ⟨_, hrole, congrArg reads.history hrolename, ?_, ?_⟩
  · rw [raw, hrole]
    rfl
  · rw [current, hrole]
    rfl

/-- What the sampler remembers: recommendations of the log, in order, and all of the window that the
last evaluation had. -/
structure Remembers (spec : ScalerSpec) (histories : RoleName → List StabilizationSample)
    (log : List ConstraintInput) : Prop where
  order : ∀ name, InOrder (histories name)
  subset : ∀ name, histories name ⊆ recommendations log name
  kept : ∀ last ∈ log.head?, ∀ other ∈ log, ∀ name ∈ other.names,
    last.now - largestStabilizationWindow spec < other.now →
      ⟨other.raw name, other.now⟩ ∈ histories name

section Evaluation

variable {spec : ScalerSpec} {histories : RoleName → List StabilizationSample}
  {log : List ConstraintInput} {scaler : Scaler} {md : Deployment} {reads : PassReads} {name : RoleName}

variable {input : ConstraintInput}

theorem recommendations_cons (hname : name ∈ input.names) :
    recommendations (input :: log) name = recommendations log name ++ [⟨input.raw name, input.now⟩] := by
  simp [recommendations, filter_append, hname]

theorem recommendations_cons_of_notMem (hname : name ∉ input.names) :
    recommendations (input :: log) name = recommendations log name := by
  simp [recommendations, filter_append, hname]

/-- Few evaluations leave few samples. -/
theorem length_recommendations_le (name : RoleName) (cutoff : ℤ) :
    ((recommendations log name).filter fun s => cutoff < s.timestamp).length
      ≤ (log.filter fun input => cutoff < input.now).length := by
  have hreverse : (log.filter fun input => decide (cutoff < input.now)).length
      = (log.reverse.filter fun input => decide (cutoff < input.now)).length := by
    rw [filter_reverse, length_reverse]
  rw [recommendations, filter_map, length_map, filter_filter, hreverse]
  refine (monotone_filter_right _ fun input => ?_).length_le
  simp only [Function.comp_apply, Bool.and_eq_true, decide_eq_true_eq]
  exact And.left

/-- **What an evaluation works with**: the samples that were kept and its own, pruned by age. -/
theorem Remembers.history (h : Remembers spec histories log) (hspec : scaler.spec = spec)
    (hhistory : reads.history = histories) (hlater : ∀ input ∈ log, input.now < reads.now)
    (hsparse : Sparse spec (constraintInput scaler md reads :: log))
    (hname : name ∈ (constraintInput scaler md reads).names) :
    InOrder (histories name ++ [⟨(constraintInput scaler md reads).raw name, reads.now⟩]) ∧
    (constraintInput scaler md reads).solveConstraints.stabilizationHistory name =
      pruneByAge (histories name ++ [⟨(constraintInput scaler md reads).raw name, reads.now⟩]) reads.now
        (largestStabilizationWindow spec) := by
  obtain ⟨role, hrole, hrecorded, hraw, -⟩ := state_constraintInput hname
  have horder : InOrder (histories name ++ [⟨(constraintInput scaler md reads).raw name, reads.now⟩]) := by
    refine pairwise_append.mpr ⟨h.order name, pairwise_singleton _ _, fun s hs t ht => ?_⟩
    obtain ⟨input, hinput, -, rfl⟩ := mem_recommendations.mp (h.subset name hs)
    obtain rfl := mem_singleton.mp ht
    exact hlater input hinput
  refine ⟨horder, ?_⟩
  rw [stabilizationHistory_solve, hrole]
  show pruneStabilizationHistory (role.stabilizationHistory ++ [⟨role.rawRecommendedReplicas, reads.now⟩])
    reads.now (largestStabilizationWindow scaler.spec) = _
  rw [hrecorded, hraw, hhistory, hspec]
  refine pruneStabilizationHistory_eq
    ((scaleDownWindow_pos spec).trans_le (scaleDownWindow_le spec)) ?_
  have hnodup := horder.nodup.filter
    fun s : StabilizationSample => decide (reads.now - largestStabilizationWindow spec < s.timestamp)
  have hsub : histories name ++ [⟨(constraintInput scaler md reads).raw name, reads.now⟩]
      ⊆ recommendations (constraintInput scaler md reads :: log) name := by
    rw [recommendations_cons hname]
    exact append_subset.mpr ⟨List.Subset.trans (h.subset name) (subset_append_left _ _),
      subset_append_right _ _⟩
  refine lt_of_le_of_lt ?_ hsparse.1
  refine (List.Nodup.subperm hnodup fun s hs => ?_).length_le.trans (length_recommendations_le name _)
  exact mem_filter.mpr ⟨hsub (mem_filter.mp hs).1, (mem_filter.mp hs).2⟩

/-- What was recommended since the window of this evaluation began is still held. -/
theorem Remembers.mem_of_recent (h : Remembers spec histories log)
    (hlater : ∀ input ∈ log, input.now < reads.now) {other : ConstraintInput} (hother : other ∈ log)
    (hname : name ∈ other.names) (hrecent : reads.now - largestStabilizationWindow spec ≤ other.now) :
    ⟨other.raw name, other.now⟩ ∈ histories name := by
  obtain ⟨last, rest, rfl⟩ := exists_cons_of_ne_nil (ne_nil_of_mem hother)
  have hlast := hlater last (.head _)
  exact h.kept last rfl other hother name hname (by omega)

/-- **An evaluation keeps it.** -/
theorem Remembers.evaluate (h : Remembers spec histories log) (hspec : scaler.spec = spec)
    (hhistory : reads.history = histories) (hlater : ∀ input ∈ log, input.now < reads.now)
    (hsparse : Sparse spec (constraintInput scaler md reads :: log)) :
    Remembers spec (recordStabilizationHistory histories (constraintInput scaler md reads))
      (constraintInput scaler md reads :: log) := by
  unfold recordStabilizationHistory
  refine ⟨fun name => ?_, fun name => ?_, fun last hlast other hother name hname hrecent => ?_⟩
  · split_ifs with hname
    · obtain ⟨horder, hkept⟩ := h.history hspec hhistory hlater hsparse hname
      exact hkept ▸ horder.pruneByAge
    · exact h.order name
  · split_ifs with hname
    · rw [(h.history hspec hhistory hlater hsparse hname).2, recommendations_cons hname]
      refine List.Subset.trans pruneByAge_subset
        (append_subset.mpr ⟨?_, subset_append_right _ _⟩)
      exact List.Subset.trans (h.subset name) (subset_append_left _ _)
    · rw [recommendations_cons_of_notMem hname]
      exact h.subset name
  · obtain rfl := Option.some.inj hlast
    split_ifs with hin
    · obtain ⟨horder, hkept⟩ := h.history hspec hhistory hlater hsparse hin
      rw [hkept]
      obtain rfl | hold := mem_cons.mp hother
      · exact mem_pruneByAge horder (mem_append_right _ (mem_singleton_self _)) hrecent.le le_rfl
      · refine mem_pruneByAge horder (mem_append_left _ ?_) hrecent.le (hlater other hold).le
        exact h.mem_of_recent hlater hold hname hrecent.le
    · obtain rfl | hold := mem_cons.mp hother
      · exact absurd hname hin
      · exact h.mem_of_recent hlater hold hname hrecent.le

theorem Remembers.of_evaluated (h : Evaluated spec histories log) (hsparse : Sparse spec log) :
    Remembers spec histories log := by
  induction h with
  | start =>
    exact ⟨fun _ => List.Pairwise.nil, fun _ => nil_subset _, fun _ h => absurd h (by simp)⟩
  | evaluate _ hspec _ hhistory hlater ih =>
    exact (ih hsparse.2).evaluate hspec hhistory hlater hsparse

/-- Only what is accepted lowers a role, and not below its floor. -/
theorem floor_le_of_lowered (hname : name ∈ input.names)
    (hlowered : input.solveConstraints.replicas name < input.current name) :
    input.Accepted ∧ (input.interval name).floor ≤ input.solveConstraints.replicas name := by
  by_cases haccepted : input.Accepted
  · rw [(solveConstraints_of_accepted haccepted).1] at hlowered ⊢
    obtain hstay | ⟨hfloor, -⟩ := settled_mem_interval hname (haccepted.2 name hname)
    · exact absurd hstay hlowered.ne
    · exact ⟨haccepted, hfloor⟩
  · rw [replicas_of_not_accepted haccepted] at hlowered
    exact absurd hlowered (lt_irrefl _)

/-- The interval of a role, and its bounds, which hold its current count. -/
theorem interval_constraintInput (hconflict : currentVectorConflict scaler.spec md.roles md.vector = none)
    (haccepted : (constraintInput scaler md reads).Accepted)
    (hname : name ∈ (constraintInput scaler md reads).names) :
    ∃ role bound, bound.minimum ≤ role.currentReplicas ∧ role.currentReplicas ≤ bound.maxReplicas ∧
      role.currentReplicas = (constraintInput scaler md reads).current name ∧
      (constraintInput scaler md reads).interval name = roleInterval (constraintInput scaler md reads)
        role bound ((constraintInput scaler md reads).solveConstraints.stabilizationHistory name) := by
  obtain ⟨role, hrole, -, -, hcurrent⟩ := state_constraintInput hname
  have hbounded : (constraintInput scaler md reads).bound name ≠ none := fun hnone =>
    eq_nil_iff_forall_not_mem.mp haccepted.1 name (mem_unbounded.mpr ⟨hname, hnone⟩)
  obtain ⟨bound, hbound⟩ := Option.ne_none_iff_exists'.mp hbounded
  obtain ⟨hmem, hboundname⟩ := bound_spec hbound
  obtain ⟨count, hcount, hmin, hmax⟩ := (currentVectorConflict_eq_none.mp hconflict).2.bounds bound hmem
  have heq : role.currentReplicas = count := by
    rw [hcurrent, current_constraintInput, ReplicaVector.count, ← hboundname, hcount]
    rfl
  refine ⟨role, bound, heq ▸ hmin, heq ▸ hmax, hcurrent, ?_⟩
  rw [interval, hrole, hbound, stabilizationHistory_solve, hrole]
  rfl

end Evaluation

/-- **A role that an evaluation lowers stays at or above everything recommended for it in the window**,
as long as the windows are sparse. -/
theorem lowered_stays_above_window {spec : ScalerSpec} {histories : RoleName → List StabilizationSample}
    {input : ConstraintInput} {log : List ConstraintInput} {name : RoleName}
    (h : Evaluated spec histories (input :: log)) (hsparse : Sparse spec (input :: log))
    (hname : name ∈ input.names)
    (hlowered : input.solveConstraints.replicas name < input.current name) :
    ∀ other ∈ input :: log, name ∈ other.names → input.now - scaleDownWindow spec ≤ other.now →
      other.raw name ≤ input.solveConstraints.replicas name := by
  intro other hother hother' hrecent
  cases h with
  | @evaluate before _ h scaler md reads hspec hconflict hhistory hlater =>
    have hremembers := Remembers.of_evaluated h hsparse.2
    obtain ⟨haccepted, hfloor⟩ := floor_le_of_lowered hname hlowered
    obtain ⟨role, bound, hmin, hmax, hcurrent, hinterval⟩ :=
      interval_constraintInput hconflict haccepted hname
    obtain ⟨horder, hkept⟩ := hremembers.history hspec hhistory hlater hsparse hname
    have hwindow := scaleDownWindow_le spec
    have hnow : other.now ≤ reads.now := by
      obtain rfl | hold := mem_cons.mp hother
      · exact le_rfl
      · exact (hlater other hold).le
    have hrecent' : reads.now - scaleDownWindow spec ≤ other.now := hrecent
    -- The recommendation is among the samples the floor is taken from.
    have hmem : ⟨other.raw name, other.now⟩
        ∈ (constraintInput scaler md reads).solveConstraints.stabilizationHistory name := by
      rw [hkept]
      refine mem_pruneByAge horder ?_ (by omega : reads.now - _ ≤ other.now) hnow
      obtain rfl | hold := mem_cons.mp hother
      · exact mem_append_right _ (mem_singleton_self _)
      · exact mem_append_left _ (hremembers.mem_of_recent hlater hold hother' (by omega))
    have hold : (constraintInput scaler md reads).now
        - scaleDownWindow (constraintInput scaler md reads).spec ≤ other.now := by
      rwa [show (constraintInput scaler md reads).spec = spec from hspec]
    have hle := le_floor hmin hmax hmem hold hnow
    rw [← hinterval, hcurrent] at hle
    exact (min_le_iff.mp (hle.trans hfloor)).resolve_left (not_le.mpr hlowered)

/-! ## Two evaluations -/

/-- One role, with a window of 1285 seconds. -/
def peakScaler : Scaler where
  uid := "scaler"
  generation := 1
  spec :=
    { roles := [{ name := decodeRole, maxReplicas := 4 }]
      behavior := { scaleDown := { stabilizationWindowSeconds := 1285 } } }
  status := { term := 1 }

/-- It runs three times. -/
def peakTarget : Deployment where
  roles := [{ name := decodeRole, replicas := 3 }]
  binding := some ⟨"scaler", 1⟩
  nodup := by decide

/-- An evaluation that recommends a count. -/
def recommend (histories : RoleName → List StabilizationSample) (now desired : ℤ) : ConstraintInput :=
  constraintInput peakScaler peakTarget
    { now := seconds now
      signal := fun _ => { recommendation := { desiredReplicas := desired } }
      history := histories }

theorem Evaluated.recommend {histories : RoleName → List StabilizationSample}
    {log : List ConstraintInput} (h : Evaluated peakScaler.spec histories log) {now : ℤ} (desired : ℤ)
    (hlater : ∀ input ∈ log, input.now < seconds now) :
    Evaluated peakScaler.spec
      (recordStabilizationHistory histories (GpuStack.recommend histories now desired))
      (GpuStack.recommend histories now desired :: log) :=
  h.evaluate rfl (by decide +kernel) rfl hlater

def steadyFirst : ConstraintInput := recommend (fun _ => []) 0 1

/-- One is recommended again at the end of the window. -/
def steadySecond : ConstraintInput :=
  recommend (recordStabilizationHistory (fun _ => []) steadyFirst) 1285 1

/-- The role is lowered to two then, and one is all that was recommended. -/
theorem lowered_after_steady_window :
    (decodeRole ∈ steadySecond.names ∧
      steadySecond.solveConstraints.replicas decodeRole < steadySecond.current decodeRole) ∧
    ∀ other ∈ [steadySecond, steadyFirst], decodeRole ∈ other.names →
      steadySecond.now - scaleDownWindow peakScaler.spec ≤ other.now →
      other.raw decodeRole ≤ steadySecond.solveConstraints.replicas decodeRole := by
  have hname : decodeRole ∈ steadySecond.names := by decide +kernel
  have hlowered : steadySecond.solveConstraints.replicas decodeRole < steadySecond.current decodeRole := by
    decide +kernel
  have hsparse : Sparse peakScaler.spec [steadySecond, steadyFirst] :=
    ⟨by decide +kernel, by decide +kernel, trivial⟩
  have hrun : Evaluated peakScaler.spec _ [steadySecond, steadyFirst] :=
    (Evaluated.start.recommend 1 (by simp)).recommend 1 (by decide +kernel)
  exact ⟨⟨hname, hlowered⟩, lowered_stays_above_window hrun hsparse hname hlowered⟩

/-! ## A run that forgets -/

/-- Three are recommended once, at the second evaluation, and one at all others. -/
def peakSample (n : ℕ) : StabilizationSample := ⟨if n = 1 then 3 else 1, seconds (5 * n)⟩

/-- What is kept after so many evaluations, one every five seconds. -/
def peakHistory : ℕ → List StabilizationSample
  | 0 => []
  | n + 1 =>
    pruneStabilizationHistory (peakHistory n ++ [peakSample n]) (seconds (5 * n)) (seconds 1285)

def peakHistories (n : ℕ) (name : RoleName) : List StabilizationSample :=
  if name = decodeRole then peakHistory n else []

def peakInput (n : ℕ) : ConstraintInput :=
  recommend (peakHistories n) (5 * n) (peakSample n).replicas

def peakLog : ℕ → List ConstraintInput
  | 0 => []
  | n + 1 => peakInput n :: peakLog n

theorem mem_peakLog {input : ConstraintInput} :
    input ∈ peakLog n ↔ ∃ k < n, input = peakInput k := by
  induction n with
  | zero => simp [peakLog]
  | succ n ih =>
    rw [peakLog, mem_cons, ih]
    constructor
    · rintro (rfl | ⟨k, hk, rfl⟩)
      · exact ⟨n, n.lt_succ_self, rfl⟩
      · exact ⟨k, hk.trans n.lt_succ_self, rfl⟩
    · rintro ⟨k, hk, rfl⟩
      obtain hk | rfl := Nat.lt_succ_iff_lt_or_eq.mp hk
      · exact .inr ⟨k, hk, rfl⟩
      · exact .inl rfl

theorem recordStabilizationHistory_peakInput (n : ℕ) :
    recordStabilizationHistory (peakHistories n) (peakInput n) = peakHistories (n + 1) := by
  funext name
  have hnames : name ∈ (peakInput n).names ↔ name = decodeRole := mem_singleton
  by_cases hname : name = decodeRole
  · rw [recordStabilizationHistory, if_pos (hnames.mpr hname), hname, stabilizationHistory_solve]
    rfl
  · rw [recordStabilizationHistory, if_neg (mt hnames.mp hname), peakHistories, if_neg hname,
      peakHistories, if_neg hname]

theorem evaluated_peak (n : ℕ) : Evaluated peakScaler.spec (peakHistories n) (peakLog n) := by
  induction n with
  | zero =>
    have hnone : peakHistories 0 = fun _ => [] := funext fun name => ite_self _
    rw [hnone]
    exact .start
  | succ n ih =>
    rw [← recordStabilizationHistory_peakInput]
    refine ih.recommend _ fun input hinput => ?_
    obtain ⟨k, hk, rfl⟩ := mem_peakLog.mp hinput
    show seconds (5 * k) < seconds (5 * n)
    unfold seconds
    omega

/-- Everything is younger than the window, for as long as that takes. -/
theorem pruneByAge_peak (h : n ≤ 256) :
    pruneByAge ((List.range (n + 1)).map peakSample) (seconds (5 * n)) (seconds 1285)
      = (List.range (n + 1)).map peakSample := by
  have hall : ∀ s ∈ (range (n + 1)).map peakSample,
      seconds (5 * n) - seconds 1285 < s.timestamp ∧ s.timestamp ≤ seconds (5 * n) := by
    intro s hs
    obtain ⟨k, hk, rfl⟩ := mem_map.mp hs
    have hk := mem_range.mp hk
    show seconds (5 * n) - seconds 1285 < seconds (5 * k) ∧ seconds (5 * k) ≤ seconds (5 * n)
    unfold seconds
    omega
  have hnone : ((range (n + 1)).map peakSample).filter
      (fun s => decide (s.timestamp ≤ seconds (5 * n) - seconds 1285)) = [] :=
    filter_eq_nil_iff.mpr fun s hs => by simpa using (hall s hs).1
  have hkeep : ((range (n + 1)).map peakSample).filter
      (fun s => decide (seconds (5 * n) - seconds 1285 < s.timestamp ∧ s.timestamp ≤ seconds (5 * n)))
        = (range (n + 1)).map peakSample :=
    filter_eq_self.mpr fun s hs => decide_eq_true (hall s hs)
  rw [pruneByAge, hnone, hkeep]
  rfl

theorem peakHistory_succ (h : n ≤ 256) (hn : peakHistory n = (List.range n).map peakSample) :
    peakHistory (n + 1) = pruneBySize ((List.range (n + 1)).map peakSample) := by
  have hwindow : 0 < seconds 1285 := by decide
  rw [peakHistory, hn, ← map_singleton (f := peakSample), ← map_append, ← range_succ,
    pruneStabilizationHistory, if_pos hwindow, pruneByAge_peak h]

/-- As long as there is room, everything is kept. -/
theorem peakHistory_eq (h : n ≤ 256) : peakHistory n = (List.range n).map peakSample := by
  induction n with
  | zero => rfl
  | succ n ih =>
    rw [peakHistory_succ (by omega) (ih (by omega))]
    exact pruneBySize_eq_self (by simpa [maxStabilizationSamples] using h)

/-- The second sample goes then, and the evaluation at the end of the window lowers the role. -/
theorem replicas_peak : (peakInput 257).solveConstraints.replicas decodeRole = 2 := by
  have hfull : peakHistories 257 = fun name =>
      if name = decodeRole then pruneBySize ((range 257).map peakSample) else [] := by
    unfold peakHistories
    rw [peakHistory_succ le_rfl (peakHistory_eq le_rfl)]
  rw [peakInput, hfull]
  decide +kernel

/-- **A recommendation of the window is undercut**: three are recommended five seconds into the window,
and the evaluation at its end lowers the role to two. -/
theorem dropped_peak_is_forgotten :
    ∃ (histories : RoleName → List StabilizationSample) (input other : ConstraintInput)
      (log : List ConstraintInput),
      Evaluated peakScaler.spec histories (input :: log) ∧ decodeRole ∈ input.names ∧
      input.solveConstraints.replicas decodeRole < input.current decodeRole ∧ other ∈ log ∧
      decodeRole ∈ other.names ∧ input.now - scaleDownWindow peakScaler.spec ≤ other.now ∧
      input.solveConstraints.replicas decodeRole < other.raw decodeRole := by
  refine ⟨_, peakInput 257, peakInput 1, peakLog 257, evaluated_peak 258, mem_singleton_self _, ?_,
    mem_peakLog.mpr ⟨1, by decide, rfl⟩, mem_singleton_self _, by decide, ?_⟩
  · rw [replicas_peak]
    decide
  · rw [replicas_peak]
    decide

end GpuStack
