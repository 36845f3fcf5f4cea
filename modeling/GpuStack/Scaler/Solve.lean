import GpuStack.Scaler.Search

/-!
# Scaler/Solve — one vector for all roles

`solveConstraints` gives every role its paced interval, cuts the roles into the components their ratios
join, and counts each component: a role that stands alone goes to what is wanted, as far as its interval
lets it; coupled roles are searched for together, all of them growing or all of them shrinking.

A component is settled from its own roles' states, but its vectors are tested against every ratio of the
specification.  A ratio of another component reads roles that a vector of this one does not count, and
is then never met.

A map of the code is here the function that reads it; a role a map does not hold reads as zero.
-/

namespace GpuStack

open List

/-! ## What the solver is given -/

/-- Why a role is held. -/
inductive ConstraintReason
  | boundsConflict
  | ratioConflict
  | pacingBounded
deriving DecidableEq, Repr

/-- The projected vector and its explanation. -/
structure ConstraintResult where
  replicas : RoleName → ℤ
  reasons : RoleName → Option ConstraintReason
  intervals : RoleName → ReplicaInterval
  stabilizationHistory : RoleName → List StabilizationSample
  blockingReason : Option ConstraintReason

namespace ConstraintInput

variable (input : ConstraintInput)

/-- The state of a role; of two the last stands. -/
def state (name : RoleName) : Option RoleState := input.roles.reverse.find? (·.name = name)

def bound (name : RoleName) : Option RoleBounds := input.spec.roles.reverse.find? (·.name = name)

def current (name : RoleName) : ℤ := (input.state name).elim 0 (·.currentReplicas)

def raw (name : RoleName) : ℤ := (input.state name).elim 0 (·.rawRecommendedReplicas)

/-- What is kept of a role's history, with this pass's recommendation. -/
def history (role : RoleState) : List StabilizationSample :=
  pruneStabilizationHistory (role.stabilizationHistory ++ [⟨role.rawRecommendedReplicas, input.now⟩])
    input.now (largestStabilizationWindow input.spec)

def interval (name : RoleName) : ReplicaInterval :=
  match input.state name, input.bound name with
  | some role, some bound => roleInterval input role bound (input.history role)
  | _, _ => {}

def names : List RoleName := input.roles.map (·.name)

/-- The roles without bounds. -/
def unbounded : List RoleName := input.names.filter fun name => (input.bound name).isNone

/-- A role's interval holds a count. -/
def fits (name : RoleName) : Bool := (input.interval name).floor ≤ (input.interval name).ceil

/-- **The solver has something to solve**: every role is bounded, and no interval is empty. -/
def Accepted : Prop := input.unbounded = [] ∧ ∀ name ∈ input.names, input.fits name = true

instance : Decidable input.Accepted := inferInstanceAs (Decidable (_ ∧ _))

/-! ## The components -/

def sortNames (names : List RoleName) : List RoleName := names.insertionSort (· ≤ ·)

/-- No search takes more steps than there are roles to find. -/
def searchFuel (ratios : List RoleRatio) : ℕ := 2 * ratios.length + 1

/-- The role's component. -/
def connectedComponent (ratios : List RoleRatio) (name : RoleName) : List RoleName :=
  sortNames (Component.connected (ratioGraph ratios) (searchFuel ratios) name [])

/-- The components of all roles, each in order. -/
def components : List (List RoleName) :=
  (Component.components (ratioGraph input.spec.ratios) (searchFuel input.spec.ratios) []
    (sortNames input.names)).map sortNames

/-! ## One component -/

end ConstraintInput

/-- Which way a component is to go. -/
inductive Direction
  | up
  | down
deriving DecidableEq, Repr

/-- A vector with a count for every role of a component. -/
def tabulate (component : List RoleName) (f : RoleName → ℤ) : ReplicaVector :=
  component.map fun name => (name, f name)

/-- What is settled for the roles of a component. -/
structure Projection where
  replicas : RoleName → ℤ
  reasons : RoleName → Option ConstraintReason

namespace ConstraintInput

variable (input : ConstraintInput) (component : List RoleName)

/-- Up as soon as one role is to grow. -/
def direction : Option Direction :=
  if component.any fun name => input.current name < input.raw name then some .up
  else if component.any fun name => input.raw name < input.current name then some .down
  else none

/-- The range of a role, restricted to a direction. -/
def low (d : Direction) (name : RoleName) : ℤ :=
  match d with
  | .up => max (input.interval name).floor (input.current name)
  | .down => (input.interval name).floor

def high (d : Direction) (name : RoleName) : ℤ :=
  match d with
  | .up => (input.interval name).ceil
  | .down => min (input.interval name).ceil (input.current name)

def desired (d : Direction) (name : RoleName) : ℤ :=
  clamp (input.raw name) (input.low d name) (input.high d name)

/-- What a component is searched for. -/
def problem (d : Direction) : SearchProblem where
  component := component
  ratios := input.spec.ratios
  low := tabulate component (input.low d)
  high := tabulate component (input.high d)
  desired := tabulate component (input.desired d)

/-- The same with the whole intervals. -/
def fullProblem (d : Direction) : SearchProblem :=
  { input.problem component d with
    low := tabulate component fun name => (input.interval name).floor
    high := tabulate component fun name => (input.interval name).ceil }

/-- **The counts of coupled roles.** -/
def projectComponent : Projection :=
  match input.direction component with
  | none =>
    { replicas := input.current
      reasons := fun _ =>
        if ratiosSatisfied (tabulate component input.current).count input.spec.ratios then none
        else some .ratioConflict }
  | some d =>
    match (input.problem component d).searchComponent with
    | none =>
      { replicas := input.current
        reasons := fun _ =>
          if (input.fullProblem component d).searchComponent.isSome then some .pacingBounded
          else some .ratioConflict }
    | some best =>
      { replicas := best.count
        reasons := fun name =>
          if best.count name ≠ input.desired d name ∨
              best.count name = input.current name ∧ input.desired d name ≠ input.current name then
            some .pacingBounded
          else none }

/-- A role without a ratio goes where it is wanted, as far as its interval lets it. -/
def settle : Projection :=
  match component with
  | [name] =>
    if ratioGraph input.spec.ratios name = [] then
      { replicas := fun _ =>
          clamp (input.raw name) (input.interval name).floor (input.interval name).ceil
        reasons := fun _ => none }
    else input.projectComponent [name]
  | _ => input.projectComponent component

/-! ## All components -/

/-- What the components settle for a role; a role of none is as it was. -/
def settled (name : RoleName) : ℤ × Option ConstraintReason :=
  match input.components.find? (name ∈ ·) with
  | none => (input.current name, none)
  | some component => ((input.settle component).replicas name, (input.settle component).reasons name)

/-- The reason a component is held for.  The code walks a map, so of several any may be it. -/
def componentReason : Option ConstraintReason :=
  input.components.flatten.findSome? fun name => (input.settled name).2

/-- A role is wanted elsewhere and stays. -/
def held (name : RoleName) : Bool :=
  ∃ role ∈ input.roles, role.name = name ∧ role.rawRecommendedReplicas ≠ role.currentReplicas ∧
    (input.settled name).1 = role.currentReplicas

/-- The roles up to and with the first whose interval is empty. -/
def conflicting : List RoleName :=
  input.names.take ((input.names.takeWhile input.fits).length + 1)

/-- The result as it is before anything is settled. -/
def unsolved (reasons : List RoleName) : ConstraintResult where
  replicas := input.current
  reasons := fun name => if name ∈ reasons then some .boundsConflict else none
  intervals := input.interval
  stabilizationHistory := fun name => (input.state name).elim [] input.history
  blockingReason := some .boundsConflict

/-- **Bounds, pacing, guards and ratios, in one vector.** -/
def solveConstraints : ConstraintResult :=
  if input.unbounded ≠ [] then input.unsolved input.unbounded
  else if ¬ input.names.all input.fits then input.unsolved input.conflicting
  else
    { input.unsolved [] with
      replicas := fun name => (input.settled name).1
      reasons := fun name =>
        if input.componentReason = none ∧ input.held name then some .pacingBounded
        else (input.settled name).2
      blockingReason := input.componentReason.or
        (if input.names.any input.held then some .pacingBounded else none) }

/-! ## Reading states and bounds -/

variable {input : ConstraintInput} {name : RoleName}

theorem state_spec {role : RoleState} (h : input.state name = some role) :
    role ∈ input.roles ∧ role.name = name :=
  ⟨mem_reverse.mp (mem_of_find?_eq_some h), by simpa using find?_some h⟩

theorem bound_spec {bound : RoleBounds} (h : input.bound name = some bound) :
    bound ∈ input.spec.roles ∧ bound.name = name :=
  ⟨mem_reverse.mp (mem_of_find?_eq_some h), by simpa using find?_some h⟩

theorem state_eq_none : input.state name = none ↔ name ∉ input.names := by
  simp [state, names]

/-! ## The components, as lists of names -/

end ConstraintInput

theorem count_tabulate {component : List RoleName} {f : RoleName → ℤ} {name : RoleName} :
    (tabulate component f).count name = if name ∈ component then f name else 0 := by
  unfold ReplicaVector.count tabulate
  induction component with
  | nil => rfl
  | cons first component ih =>
    rw [map_cons, lookup_cons]
    by_cases heq : name = first
    · simp [heq]
    · simpa [heq, beq_false_of_ne heq] using ih

theorem ratioGraph_symm (ratios : List RoleRatio) (a b : RoleName) (h : b ∈ ratioGraph ratios a) :
    a ∈ ratioGraph ratios b := by
  obtain ⟨r, hr, hends⟩ := mem_ratioGraph.mp h
  exact mem_ratioGraph.mpr ⟨r, hr, hends.symm.imp And.symm And.symm⟩

namespace ConstraintInput

variable {names : List RoleName}

theorem mem_sortNames {name : RoleName} :
    name ∈ sortNames names ↔ name ∈ names :=
  (perm_insertionSort _ _).mem_iff

theorem nodup_sortNames : (sortNames names).Nodup ↔ names.Nodup :=
  (perm_insertionSort _ _).nodup_iff

/-- Names are sorted in one way only. -/
theorem sortNames_eq {names' : List RoleName} (h : names.Nodup) (h' : names'.Nodup)
    (hmem : ∀ name, name ∈ names ↔ name ∈ names') : sortNames names = sortNames names' := by
  have hperm : names.Perm names' := (perm_ext_iff_of_nodup h h').mpr hmem
  refine List.Perm.eq_of_pairwise (fun a b _ _ => le_antisymm) (pairwise_insertionSort _ _)
    (pairwise_insertionSort _ _) ?_
  exact ((perm_insertionSort _ _).trans hperm).trans (perm_insertionSort _ _).symm

/-- **The fuel is enough**: a start leads to no roles but those of ratios. -/
theorem within_searchFuel (ratios : List RoleRatio) (name : RoleName) :
    Component.Within (ratioGraph ratios) (searchFuel ratios) name := by
  have hcard : (ratios.flatMap fun r => [r.numeratorRole, r.denominatorRole]).length
      = 2 * ratios.length := by
    simp [length_flatMap, mul_comm]
  refine ⟨insert name (ratios.flatMap fun r => [r.numeratorRole, r.denominatorRole]).toFinset,
    Finset.mem_insert_self _ _, fun a _ b hb => ?_, ?_⟩
  · obtain ⟨r, hr, hends⟩ := mem_ratioGraph.mp hb
    refine Finset.mem_insert_of_mem (mem_toFinset.mpr (mem_flatMap.mpr ⟨r, hr, ?_⟩))
    obtain ⟨-, rfl⟩ | ⟨-, rfl⟩ := hends <;> simp
  · refine (Finset.card_insert_le _ _).trans (Nat.succ_le_succ ?_)
    exact (toFinset_card_le _).trans hcard.le

variable {ratios : List RoleRatio} {name a b : RoleName}

theorem mem_connectedComponent :
    a ∈ connectedComponent ratios name ↔ Component.Joined (ratioGraph ratios) name a := by
  rw [connectedComponent, mem_sortNames]
  exact Component.mem_connected (ratioGraph_symm ratios) (within_searchFuel ratios name)
    not_mem_nil (fun _ h => nomatch h)

theorem self_mem_connectedComponent : name ∈ connectedComponent ratios name :=
  mem_connectedComponent.mpr .refl

theorem nodup_connectedComponent : (connectedComponent ratios name).Nodup :=
  nodup_sortNames.mpr
    (Component.explored_of_within (within_searchFuel ratios name) not_mem_nil).1.nodup

theorem closed_connectedComponent (ha : a ∈ connectedComponent ratios name)
    (hb : b ∈ ratioGraph ratios a) : b ∈ connectedComponent ratios name :=
  mem_connectedComponent.mpr ((mem_connectedComponent.mp ha).tail hb)

/-- Nodup names that are what a role is joined to, sorted, are the role's component. -/
theorem sortNames_eq_connectedComponent (hnodup : names.Nodup)
    (hmem : ∀ a, a ∈ names ↔ Component.Joined (ratioGraph ratios) name a) :
    sortNames names = connectedComponent ratios name := by
  refine sortNames_eq hnodup (nodup_sortNames.mp nodup_connectedComponent) fun a => ?_
  rw [hmem, ← mem_connectedComponent, connectedComponent, mem_sortNames]

/-- The roles of a component have one component. -/
theorem connectedComponent_eq (h : a ∈ connectedComponent ratios name) :
    connectedComponent ratios a = connectedComponent ratios name := by
  have hjoined := mem_connectedComponent.mp h
  have hback := hjoined.symm (ratioGraph_symm ratios)
  refine sortNames_eq_connectedComponent (nodup_sortNames.mp nodup_connectedComponent) fun b => ?_
  rw [← mem_sortNames]
  exact mem_connectedComponent.trans ⟨hjoined.trans, hback.trans⟩

/-- A ratio with a role of a component has both there. -/
theorem inside_of_mem {r : RoleRatio} (hr : r ∈ ratios)
    (h : r.numeratorRole ∈ connectedComponent ratios name ∨
      r.denominatorRole ∈ connectedComponent ratios name) :
    r.inside (connectedComponent ratios name) = true := by
  refine decide_eq_true ?_
  obtain h | h := h
  · exact ⟨h, closed_connectedComponent h (mem_ratioGraph.mpr ⟨r, hr, .inl ⟨rfl, rfl⟩⟩)⟩
  · exact ⟨closed_connectedComponent h (mem_ratioGraph.mpr ⟨r, hr, .inr ⟨rfl, rfl⟩⟩), h⟩

variable {input : ConstraintInput}

/-- **The components are those of the roles.** -/
theorem mem_components {component : List RoleName} :
    component ∈ input.components ↔
      ∃ name ∈ input.names, component = connectedComponent input.spec.ratios name := by
  obtain ⟨hspec, -, hcover⟩ := Component.components_spec (l := sortNames input.names)
    (ratioGraph_symm input.spec.ratios) (within_searchFuel input.spec.ratios)
    (fun _ h => nomatch h : Component.Closed (ratioGraph input.spec.ratios) [])
  unfold components
  rw [mem_map]
  constructor
  · rintro ⟨found, hfound, rfl⟩
    obtain ⟨hnodup, -, start, hstart, hmem⟩ := hspec found hfound
    exact ⟨start, mem_sortNames.mp hstart, sortNames_eq_connectedComponent hnodup hmem⟩
  · rintro ⟨name, hname, rfl⟩
    obtain ⟨found, hfound, hmem⟩ := hcover name (mem_sortNames.mpr hname) not_mem_nil
    obtain ⟨hnodup, -, start, -, hjoined⟩ := hspec found hfound
    have heq := sortNames_eq_connectedComponent hnodup hjoined
    refine ⟨found, hfound, heq.trans (connectedComponent_eq ?_).symm⟩
    rw [← heq, mem_sortNames]
    exact hmem

/-- **A role is settled with its component.** -/
theorem settled_eq (hname : name ∈ input.names) (ha : a ∈ connectedComponent input.spec.ratios name) :
    input.settled a = ((input.settle (connectedComponent input.spec.ratios name)).replicas a,
      (input.settle (connectedComponent input.spec.ratios name)).reasons a) := by
  have hmem := mem_components.mpr ⟨name, hname, rfl⟩
  unfold settled
  cases hfind : input.components.find? (a ∈ ·) with
  | none => exact absurd (decide_eq_true ha) (find?_eq_none.mp hfind _ hmem)
  | some found =>
    obtain ⟨other, -, rfl⟩ := mem_components.mp (mem_of_find?_eq_some hfind)
    have hfound : a ∈ connectedComponent input.spec.ratios other := by
      simpa using find?_some hfind
    rw [← connectedComponent_eq hfound, connectedComponent_eq ha]

/-- A role with a ratio is projected with its component. -/
theorem settle_eq_projectComponent (h : ratioGraph input.spec.ratios name ≠ []) :
    input.settle (connectedComponent input.spec.ratios name)
      = input.projectComponent (connectedComponent input.spec.ratios name) := by
  have hself : name ∈ connectedComponent input.spec.ratios name := self_mem_connectedComponent
  unfold settle
  split
  · rename_i only heq
    rw [heq] at hself ⊢
    rw [mem_singleton.mp hself] at h
    rw [if_neg h]
  · rfl

/-- A role without one stands alone. -/
theorem settle_alone (h : ratioGraph input.spec.ratios name = []) :
    connectedComponent input.spec.ratios name = [name] ∧
      (input.settle (connectedComponent input.spec.ratios name)).reasons = fun _ => none := by
  have honly : connectedComponent input.spec.ratios name = [name] := by
    refine (sortNames_eq_connectedComponent (nodup_singleton name) fun a => ?_).symm
    rw [mem_singleton]
    refine ⟨fun heq => heq ▸ .refl, fun hjoined => ?_⟩
    obtain rfl | ⟨b, hedge, -⟩ := hjoined.cases_head
    · rfl
    · rw [Component.Edge, h] at hedge
      exact nomatch hedge
  refine ⟨honly, ?_⟩
  rw [honly, settle, if_pos h]

theorem coupled_problem (d : Direction) :
    (input.problem (connectedComponent input.spec.ratios name) d).Coupled where
  nodup := nodup_connectedComponent
  closed _ ha _ hb := closed_connectedComponent ha hb

theorem coupled_fullProblem (d : Direction) :
    (input.fullProblem (connectedComponent input.spec.ratios name) d).Coupled where
  nodup := nodup_connectedComponent
  closed _ ha _ hb := closed_connectedComponent ha hb

/-! ## What is solved -/

theorem mem_unbounded : name ∈ input.unbounded ↔ name ∈ input.names ∧ input.bound name = none := by
  simp [unbounded]

/-- What is solved of an accepted input is what its components settle. -/
theorem solveConstraints_of_accepted (h : input.Accepted) :
    input.solveConstraints.replicas = (fun name => (input.settled name).1) ∧
    input.solveConstraints.reasons = fun name =>
      if input.componentReason = none ∧ input.held name then some .pacingBounded
      else (input.settled name).2 := by
  have hfits : input.names.all input.fits = true := all_eq_true.mpr h.2
  unfold solveConstraints
  rw [if_neg (not_not.mpr h.1), if_neg (not_not.mpr hfits)]
  exact ⟨rfl, rfl⟩

theorem replicas_of_not_accepted (h : ¬ input.Accepted) :
    input.solveConstraints.replicas = input.current := by
  unfold solveConstraints
  by_cases hbounded : input.unbounded = []
  · have hfits : ¬ input.names.all input.fits = true := fun hfits =>
      h ⟨hbounded, all_eq_true.mp hfits⟩
    rw [if_neg (not_not.mpr hbounded), if_pos hfits]
    rfl
  · rw [if_pos hbounded]
    rfl

end ConstraintInput

end GpuStack
