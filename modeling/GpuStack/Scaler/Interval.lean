import Mathlib

/-!
# Scaler/Interval — how far a role may move

A scaler is given bounds, ratios and rules of pace.  For each role one pass computes an interval: the
ceiling from the growth rules, the floor from the shrink rules and from what was recommended over the
stabilization window (`roleInterval`).  The interval lies inside the role's bounds and holds the current
count, taken to the bounds (`roleInterval_spec`).

Counts are integers and times are nanoseconds.  A name of a role is never empty.
-/

namespace GpuStack

/-! ## The scaler's specification -/

/-- The name of a role. -/
abbrev RoleName := { name : String // name ≠ "" }

instance : LawfulBEq RoleName := inferInstance

/-- The bounds one role stays inside. -/
structure RoleBounds where
  name : RoleName
  minReplicas : ℤ := 1
  maxReplicas : ℤ
deriving DecidableEq

/-- A relationship two roles keep.  A quantity that is not set is `none`. -/
structure RoleRatio where
  numeratorRole : RoleName
  denominatorRole : RoleName
  target : Option ℚ := none
  min : Option ℚ := none
  max : Option ℚ := none
deriving DecidableEq

inductive StepPolicyType
  | pods
  | percent
deriving DecidableEq, Repr

/-- A bound on how far one role may move in one pass. -/
structure StepPolicy where
  type : StepPolicyType
  value : ℤ
deriving DecidableEq, Repr

structure ScaleUpRules where
  stabilizationWindowSeconds : ℤ := 0
  maxStepReplicas : ℤ := 0
  maxStepPercent : ℤ := 0
  stepPolicy : Option StepPolicy := none
deriving DecidableEq, Repr

structure ScaleDownRules where
  stabilizationWindowSeconds : ℤ := 0
  cooldownAfterAbortSeconds : ℤ := 0
  decodePostScaleUpGraceSeconds : ℤ := 0
  stepPolicy : Option StepPolicy := none
deriving DecidableEq, Repr

structure BehaviorSpec where
  scaleUp : ScaleUpRules := {}
  scaleDown : ScaleDownRules := {}
deriving DecidableEq, Repr

inductive RebalancePolicy
  | opposing
  | priority
  | disabled
deriving DecidableEq, Repr

structure RebalanceSpec where
  policy : Option RebalancePolicy := none
  priority : List RoleName := []
deriving DecidableEq

structure ScalerSpec where
  roles : List RoleBounds
  ratios : List RoleRatio := []
  behavior : BehaviorSpec := {}
  rebalance : RebalanceSpec := {}
  pendingTimeoutSeconds : ℤ := 0
deriving DecidableEq

/-! ## A role at one pass -/

inductive RoleKind
  | server
  | prefill
  | decode
deriving DecidableEq, Repr

/-- A recommendation, and when it was recorded. -/
structure StabilizationSample where
  replicas : ℤ
  timestamp : ℤ
deriving DecidableEq, Repr

structure RoleState where
  name : RoleName
  kind : RoleKind := .server
  currentReplicas : ℤ
  rawRecommendedReplicas : ℤ
  holdScaleDown : Bool := false
  completeCoverage : Bool := true
  hasPendingUnadmittedWorkload : Bool := false
  lastScaleUpTime : Option ℤ := none
  stabilizationHistory : List StabilizationSample := []
deriving DecidableEq

/-- What the constraint solver is given. -/
structure ConstraintInput where
  spec : ScalerSpec
  roles : List RoleState
  hasActiveRetirement : Bool := false
  inAbortCooldown : Bool := false
  cooldownUntil : Option ℤ := none
  now : ℤ
deriving DecidableEq

/-- The paced interval of one role. -/
structure ReplicaInterval where
  floor : ℤ := 0
  ceil : ℤ := 0
deriving DecidableEq, Repr

/-! ## The stabilization history -/

/-- A number of seconds, in nanoseconds. -/
def seconds (n : ℤ) : ℤ := n * 10 ^ 9

def defaultScaleDownWindow : ℤ := seconds 300

def defaultDecodeGrace : ℤ := seconds 120

/-- The window a scale-down looks back over. -/
def scaleDownWindow (spec : ScalerSpec) : ℤ :=
  if seconds spec.behavior.scaleDown.stabilizationWindowSeconds ≤ 0 then defaultScaleDownWindow
  else seconds spec.behavior.scaleDown.stabilizationWindowSeconds

def largestStabilizationWindow (spec : ScalerSpec) : ℤ :=
  max (seconds spec.behavior.scaleUp.stabilizationWindowSeconds) (scaleDownWindow spec)

/-- A role's history holds at most this many samples. -/
def maxStabilizationSamples : ℕ := 256

/-- The samples of a window, after the last one that is as old as the window. -/
def pruneByAge (history : List StabilizationSample) (now window : ℤ) : List StabilizationSample :=
  (history.filter fun s => s.timestamp ≤ now - window).getLast?.toList ++
    history.filter fun s => now - window < s.timestamp ∧ s.timestamp ≤ now

/-- The first sample and the last ones, as many as a history holds. -/
def pruneBySize (history : List StabilizationSample) : List StabilizationSample :=
  if maxStabilizationSamples < history.length then
    history.take 1 ++ history.drop (history.length - (maxStabilizationSamples - 1))
  else history

/-- **What is kept of a history.** -/
def pruneStabilizationHistory (history : List StabilizationSample) (now window : ℤ) :
    List StabilizationSample :=
  if 0 < window then pruneBySize (pruneByAge history now window) else pruneBySize history

/-- The largest recommendation of a window, if it holds one. -/
def rollingMaximum (history : List StabilizationSample) (now window : ℤ) : Option ℤ :=
  ((history.filter fun s => now - window ≤ s.timestamp ∧ s.timestamp ≤ now).map (·.replicas)).max?

/-- The history reaches back over the whole window. -/
def historySpans (history : List StabilizationSample) (now window : ℤ) : Bool :=
  window ≤ 0 ∨ (∃ s ∈ history, s.timestamp ≤ now - window) ∧
    ∃ s ∈ history, now - window ≤ s.timestamp ∧ s.timestamp ≤ now

/-! ## The interval -/

def clamp (value low high : ℤ) : ℤ :=
  if value < low then low else if high < value then high else value

/-- A share of a count, rounded up. -/
def percentOf (count percent : ℤ) : ℤ := ⌈(count * percent / 100 : ℚ)⌉

def stepAmount (current : ℤ) (policy : StepPolicy) : ℤ :=
  if policy.value ≤ 0 then 0
  else match policy.type with
    | .percent => percentOf current policy.value
    | .pods => policy.value

/-- The fewest replicas a role may have. -/
def RoleBounds.minimum (bound : RoleBounds) : ℤ :=
  if bound.minReplicas ≤ 0 then 1 else bound.minReplicas

/-- How far a role may grow, before the guards. -/
def growth (up : ScaleUpRules) (current : ℤ) : ℤ :=
  match up.stepPolicy with
  | some policy => current + stepAmount current policy
  | none =>
    let unset := up.maxStepReplicas = 0 ∧ up.maxStepPercent = 0
    let pods := if unset then 4 else up.maxStepReplicas
    let percent := if unset then 100 else up.maxStepPercent
    let ceil := if 0 < pods then max current (current + pods) else current
    if 0 < percent then max ceil (current + percentOf current percent) else ceil

/-- A recommendation to grow must have stood for the growth window. -/
def growthHeld (input : ConstraintInput) (role : RoleState) (history : List StabilizationSample)
    (current : ℤ) : Bool :=
  role.hasPendingUnadmittedWorkload ∨
    0 < input.spec.behavior.scaleUp.stabilizationWindowSeconds ∧
      current < role.rawRecommendedReplicas ∧
      ¬ historySpans history input.now (seconds input.spec.behavior.scaleUp.stabilizationWindowSeconds)

/-- How far a role may shrink, before the window and the guards. -/
def shrinkage (down : ScaleDownRules) (current : ℤ) : ℤ :=
  match down.stepPolicy with
  | some policy => current - stepAmount current policy
  | none => current - 1

/-- The floor the shrink window leaves. -/
def windowFloor (spec : ScalerSpec) (history : List StabilizationSample) (now current : ℤ) : ℤ :=
  if ¬ historySpans history now (scaleDownWindow spec) then
    max (shrinkage spec.behavior.scaleDown current) current
  else match rollingMaximum history now (scaleDownWindow spec) with
    | some m =>
      if current ≤ m then max (shrinkage spec.behavior.scaleDown current) current
      else max (shrinkage spec.behavior.scaleDown current) (min current m)
    | none => shrinkage spec.behavior.scaleDown current

/-- Nothing shrinks while a guard stands. -/
def shrinkHeld (input : ConstraintInput) (role : RoleState) : Bool :=
  role.holdScaleDown ∨ ¬ role.completeCoverage ∨ input.hasActiveRetirement ∨
    input.inAbortCooldown ∨ (∃ until_ ∈ input.cooldownUntil, input.now < until_) ∨
    role.kind = .decode ∧ ∃ last ∈ role.lastScaleUpTime, input.now - last <
      if seconds input.spec.behavior.scaleDown.decodePostScaleUpGraceSeconds ≤ 0 then
        defaultDecodeGrace
      else seconds input.spec.behavior.scaleDown.decodePostScaleUpGraceSeconds

/-- **The paced interval of a role.** -/
def roleInterval (input : ConstraintInput) (role : RoleState) (bound : RoleBounds)
    (history : List StabilizationSample) : ReplicaInterval :=
  let minimum := bound.minimum
  let maximum := bound.maxReplicas
  if maximum < minimum then ⟨minimum, maximum⟩
  else
    let current := clamp role.currentReplicas minimum maximum
    let ceil := clamp (growth input.spec.behavior.scaleUp current) current maximum
    let ceil := if growthHeld input role history current then min ceil current else ceil
    let floor := max (windowFloor input.spec history input.now current) minimum
    let floor := if shrinkHeld input role then max floor current else floor
    ⟨clamp floor minimum maximum, clamp ceil minimum maximum⟩

/-! ## What the interval holds -/

variable {value low high current : ℤ}

theorem le_clamp (h : low ≤ high) : low ≤ clamp value low high := by
  unfold clamp
  split_ifs <;> omega

theorem clamp_le (h : low ≤ high) : clamp value low high ≤ high := by
  unfold clamp
  split_ifs <;> omega

theorem clamp_eq_self (hlow : low ≤ value) (hhigh : value ≤ high) :
    clamp value low high = value := by
  unfold clamp
  split_ifs <;> omega

/-- A value below another stays below it, and one above stays above it. -/
theorem clamp_le_of_le {bound : ℤ} (hlow : low ≤ bound) (hvalue : value ≤ bound) :
    clamp value low high ≤ bound := by
  unfold clamp
  split_ifs <;> omega

theorem le_clamp_of_le {bound : ℤ} (hhigh : bound ≤ high) (hvalue : bound ≤ value) :
    bound ≤ clamp value low high := by
  unfold clamp
  split_ifs <;> omega

theorem RoleBounds.one_le_minimum (bound : RoleBounds) : 1 ≤ bound.minimum := by
  unfold RoleBounds.minimum
  split_ifs <;> omega

theorem stepAmount_nonneg (h : 0 ≤ current) (policy : StepPolicy) :
    0 ≤ stepAmount current policy := by
  unfold stepAmount
  split_ifs with hvalue
  · exact le_rfl
  · push Not at hvalue
    cases policy.type with
    | pods => exact hvalue.le
    | percent =>
      have hcount : (0 : ℚ) ≤ current := by exact_mod_cast h
      have hshare : (0 : ℚ) ≤ policy.value := by exact_mod_cast hvalue.le
      exact Int.ceil_nonneg (by positivity)

theorem shrinkage_le (h : 0 ≤ current) (down : ScaleDownRules) :
    shrinkage down current ≤ current := by
  unfold shrinkage
  cases down.stepPolicy with
  | none => exact (sub_one_lt current).le
  | some policy => exact sub_le_self _ (stepAmount_nonneg h policy)

/-- The window never asks for more than the current count. -/
theorem windowFloor_le {spec : ScalerSpec} {history : List StabilizationSample} {now : ℤ}
    (h : 0 ≤ current) : windowFloor spec history now current ≤ current := by
  have hstep := shrinkage_le h spec.behavior.scaleDown
  unfold windowFloor
  split
  · exact max_le hstep le_rfl
  split
  · split
    · exact max_le hstep le_rfl
    · exact max_le hstep (min_le_left _ _)
  · exact hstep

/-- **The interval lies in the bounds and holds the current count**, taken to the bounds. -/
theorem roleInterval_spec (input : ConstraintInput) (role : RoleState) {bound : RoleBounds}
    (history : List StabilizationSample) (h : bound.minimum ≤ bound.maxReplicas) :
    bound.minimum ≤ (roleInterval input role bound history).floor ∧
    (roleInterval input role bound history).floor
      ≤ clamp role.currentReplicas bound.minimum bound.maxReplicas ∧
    clamp role.currentReplicas bound.minimum bound.maxReplicas
      ≤ (roleInterval input role bound history).ceil ∧
    (roleInterval input role bound history).ceil ≤ bound.maxReplicas := by
  have hmin : bound.minimum ≤ clamp role.currentReplicas bound.minimum bound.maxReplicas := le_clamp h
  have hmax : clamp role.currentReplicas bound.minimum bound.maxReplicas ≤ bound.maxReplicas :=
    clamp_le h
  have hnonneg := (zero_lt_one.trans_le bound.one_le_minimum).le.trans hmin
  have hgrown : clamp role.currentReplicas bound.minimum bound.maxReplicas ≤
      clamp (growth input.spec.behavior.scaleUp
        (clamp role.currentReplicas bound.minimum bound.maxReplicas))
        (clamp role.currentReplicas bound.minimum bound.maxReplicas) bound.maxReplicas := le_clamp hmax
  unfold roleInterval
  rw [if_neg (not_lt.mpr h)]
  refine ⟨le_clamp h, clamp_le_of_le hmin ?_, le_clamp_of_le hmax ?_, clamp_le h⟩
  · split
    · exact max_le (max_le (windowFloor_le hnonneg) hmin) le_rfl
    · exact max_le (windowFloor_le hnonneg) hmin
  · split
    · exact le_min hgrown le_rfl
    · exact hgrown

/-- An interval that is not empty is one of bounds that are not. -/
theorem minimum_le_of_floor_le_ceil {input : ConstraintInput} {role : RoleState} {bound : RoleBounds}
    {history : List StabilizationSample}
    (h : (roleInterval input role bound history).floor
      ≤ (roleInterval input role bound history).ceil) : bound.minimum ≤ bound.maxReplicas := by
  by_contra hconflict
  unfold roleInterval at h
  rw [if_pos (not_le.mp hconflict)] at h
  exact hconflict h

end GpuStack
