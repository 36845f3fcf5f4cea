import GpuStack.Scaler.Runs

/-!
# Scaler/Legal — scaling keeps a vector legal

A vector is legal if every bounded role is in its bounds and every ratio is satisfied.  From a legal
vector the solver, a donor and a receiver lead to legal ones (`fits_planned`); what is retracted or
restored was in force when it was recorded.  So over every run of passes the planner commits only legal
vectors (`committed_vectors_stay_legal`).
-/

namespace GpuStack

open List

/-! ## Legal vectors -/

/-- **Every bounded role is in its bounds, and every ratio is satisfied.** -/
structure Legal (spec : ScalerSpec) (v : ReplicaVector) : Prop where
  bounds : ∀ bound ∈ spec.roles, ∃ count, v.lookup bound.name = some count ∧
    bound.minimum ≤ count ∧ count ≤ bound.maxReplicas
  ratios : ratiosSatisfied v.count spec.ratios = true

variable {v : ReplicaVector} {name : RoleName}

theorem currentVectorConflict_eq_none {spec : ScalerSpec} {roles : List DeploymentRole} : currentVectorConflict spec roles v = none ↔
      spec.roles.length = roles.length ∧ Legal spec v := by
  have hbounds : (spec.roles.any fun bound => (v.lookup bound.name).all fun count =>
      decide (count < bound.minimum ∨ bound.maxReplicas < count)) = false ↔
      ∀ bound ∈ spec.roles, ∃ count, v.lookup bound.name = some count ∧
        bound.minimum ≤ count ∧ count ≤ bound.maxReplicas := by
    rw [any_eq_false]
    refine forall₂_congr fun bound _ => ?_
    cases v.lookup bound.name <;> simp
  unfold currentVectorConflict
  split_ifs with hlength hany hratios
  · exact iff_of_false not_false fun h => hlength h.1
  · exact iff_of_false not_false fun h => Bool.noConfusion ((hbounds.mpr h.2.bounds).symm.trans hany)
  · exact iff_of_true rfl ⟨not_not.mp hlength, hbounds.mp (Bool.eq_false_iff.mpr hany), hratios⟩
  · exact iff_of_false not_false fun h => hratios h.2.ratios

/-- A vector holds a count for the roles of a target and no others. -/
def Covers (names : List RoleName) (v : ReplicaVector) : Prop :=
  ∀ name, (v.lookup name).isSome ↔ name ∈ names

theorem lookup_tabulate {names : List RoleName} {f : RoleName → ℤ} :
    (tabulate names f).lookup name = if name ∈ names then some (f name) else none := by
  unfold tabulate
  induction names with
  | nil => rfl
  | cons first names ih =>
    rw [map_cons, lookup_cons]
    by_cases heq : name = first
    · simp [heq]
    · simpa [heq, beq_false_of_ne heq] using ih

theorem covers_tabulate (names : List RoleName) (f : RoleName → ℤ) :
    Covers names (tabulate names f) := by
  intro name
  rw [lookup_tabulate]
  split_ifs with h <;> simp [h]

theorem covers_vector (md : Deployment) : Covers md.names md.vector := by
  have h : md.vector = md.roles.map fun role => (role.name, role.replicas) := rfl
  intro name
  rw [h, Deployment.names]
  induction md.roles with
  | nil => simp
  | cons role roles ih =>
    rw [map_cons, lookup_cons, map_cons, mem_cons]
    by_cases heq : name = role.name
    · simp [heq]
    · simpa [heq, beq_false_of_ne heq] using ih

theorem lookup_set {other : RoleName} {count : ℤ} :
    (v.set name count).lookup other = if other = name then some count else v.lookup other := by
  unfold ReplicaVector.set
  rw [lookup_cons]
  by_cases heq : other = name
  · simp [heq]
  · rw [beq_false_of_ne heq, if_neg heq]
    dsimp only
    induction v with
    | nil => rfl
    | cons e v ih =>
      by_cases hname : e.1 = name
      · have hne : other ≠ e.1 := fun h => heq (h.trans hname)
        rw [filter_cons_of_neg (by simp [hname]), ih, lookup_cons, beq_false_of_ne hne]
      · rw [filter_cons_of_pos (by simp [hname]), lookup_cons, lookup_cons, ih]

theorem Covers.set {names : List RoleName} (h : Covers names v)
    (hname : name ∈ names) (count : ℤ) : Covers names (v.set name count) := by
  intro other
  rw [lookup_set]
  split_ifs with heq
  · simpa [heq] using hname
  · exact h other

/-- **A target that is given a vector for its roles runs that vector.** -/
theorem lookup_writeVector {scaler : Scaler} {md : Deployment} {baseline : ReplicaVector} {now : ℤ}
    (h : Covers md.names v) (name : RoleName) :
    (writeVector scaler md v baseline now).vector.lookup name = v.lookup name := by
  have hcovers := covers_vector (writeVector scaler md v baseline now)
  rw [names_writeVector] at hcovers
  by_cases hname : name ∈ md.names
  · obtain ⟨count, hcount⟩ := Option.isSome_iff_exists.mp ((hcovers name).mpr hname)
    obtain ⟨want, hwant⟩ := Option.isSome_iff_exists.mp ((h name).mpr hname)
    have hmem := SearchProblem.mem_of_lookup_eq_some hcount
    obtain ⟨role, hrole, heq⟩ := mem_map.mp hmem
    obtain ⟨old, hold, rfl⟩ := mem_map.mp hrole
    obtain ⟨rfl, rfl⟩ := Prod.mk.inj heq
    rw [hcount, hwant]
    rfl
  · rw [Option.not_isSome_iff_eq_none.mp (mt (hcovers name).mp hname),
      Option.not_isSome_iff_eq_none.mp (mt (h name).mp hname)]

theorem Legal.congr {spec : ScalerSpec} {w : ReplicaVector} (h : Legal spec v)
    (hlookup : ∀ name, w.lookup name = v.lookup name) : Legal spec w := by
  have hcount : w.count = v.count := funext fun name => by rw [ReplicaVector.count, hlookup]; rfl
  refine ⟨fun bound hbound => ?_, hcount ▸ h.ratios⟩
  rw [hlookup]
  exact h.bounds bound hbound

/-! ## The solver -/

section Solver

open ConstraintInput

variable {input : ConstraintInput} {name : RoleName}

/-- A role's interval lies in its bounds. -/
theorem interval_mem_bounds {role : RoleState} {bound : RoleBounds} (hstate : input.state name = some role)
    (hbound : input.bound name = some bound) (hfits : input.fits name = true) :
    bound.minimum ≤ (input.interval name).floor ∧ (input.interval name).ceil ≤ bound.maxReplicas := by
  rw [fits, interval, hstate, hbound] at hfits
  rw [interval, hstate, hbound]
  obtain ⟨hfloor, -, -, hceil⟩ := roleInterval_spec input role (input.history role)
    (minimum_le_of_floor_le_ceil (of_decide_eq_true hfits))
  exact ⟨hfloor, hceil⟩

/-- **What coupled roles are given**: they stay, or a vector in their intervals meets every ratio. -/
theorem projectComponent_spec (input : ConstraintInput) (name : RoleName) :
    (input.projectComponent (connectedComponent input.spec.ratios name)).replicas = input.current ∨
    ratiosSatisfied (input.projectComponent (connectedComponent input.spec.ratios name)).replicas
        input.spec.ratios = true ∧
      ∀ a ∈ connectedComponent input.spec.ratios name,
        (input.interval a).floor
          ≤ (input.projectComponent (connectedComponent input.spec.ratios name)).replicas a ∧
        (input.projectComponent (connectedComponent input.spec.ratios name)).replicas a
          ≤ (input.interval a).ceil := by
  unfold projectComponent
  cases input.direction (connectedComponent input.spec.ratios name) with
  | none => exact .inl rfl
  | some d =>
    dsimp only
    cases hbest : (input.problem (connectedComponent input.spec.ratios name) d).searchComponent with
    | none => exact .inl rfl
    | some best =>
      obtain ⟨hrange, -, hmet⟩ := SearchProblem.searchComponent_sound (coupled_problem d) hbest
      refine .inr ⟨hmet, fun a ha => ?_⟩
      obtain ⟨hlow, hhigh⟩ := hrange a ha
      simp only [problem, count_tabulate, if_pos ha] at hlow hhigh
      have hfloor : (input.interval a).floor ≤ input.low d a := by
        cases d
        · exact le_max_left _ _
        · exact le_rfl
      have hceil : input.high d a ≤ (input.interval a).ceil := by
        cases d
        · exact le_rfl
        · exact min_le_left _ _
      exact ⟨hfloor.trans hlow, hhigh.trans hceil⟩

/-- A role is given its current count or one of its interval. -/
theorem settled_mem_interval (hname : name ∈ input.names) (hfits : input.fits name = true) :
    (input.settled name).1 = input.current name ∨
      (input.interval name).floor ≤ (input.settled name).1 ∧
        (input.settled name).1 ≤ (input.interval name).ceil := by
  rw [settled_eq hname self_mem_connectedComponent]
  dsimp only
  by_cases hratio : ratioGraph input.spec.ratios name = []
  · rw [(settle_alone hratio).1, settle, if_pos hratio]
    exact .inr ⟨le_clamp (of_decide_eq_true hfits), clamp_le (of_decide_eq_true hfits)⟩
  · rw [settle_eq_projectComponent hratio]
    obtain h | ⟨-, h⟩ := projectComponent_spec input name
    · exact .inl (congrFun h name)
    · exact .inr (h name self_mem_connectedComponent)

/-- The two roles of a ratio keep their counts, or satisfy it. -/
theorem settled_ratio {r : RoleRatio} (hr : r ∈ input.spec.ratios)
    (hname : r.numeratorRole ∈ input.names) :
    (input.settled r.numeratorRole).1 = input.current r.numeratorRole ∧
        (input.settled r.denominatorRole).1 = input.current r.denominatorRole ∨
      r.satisfied (input.settled r.numeratorRole).1 (input.settled r.denominatorRole).1 = true := by
  have hedge : r.denominatorRole ∈ ratioGraph input.spec.ratios r.numeratorRole :=
    mem_ratioGraph.mpr ⟨r, hr, .inl ⟨rfl, rfl⟩⟩
  have hden : r.denominatorRole ∈ connectedComponent input.spec.ratios r.numeratorRole :=
    closed_connectedComponent self_mem_connectedComponent hedge
  rw [settled_eq hname self_mem_connectedComponent, settled_eq hname hden,
    settle_eq_projectComponent (ne_nil_of_mem hedge)]
  obtain h | ⟨h, -⟩ := projectComponent_spec input r.numeratorRole
  · exact .inl ⟨congrFun h _, congrFun h _⟩
  · exact .inr (all_eq_true.mp h r hr)

end Solver

section Planned

open ConstraintInput

variable {scaler : Scaler} {md : Deployment} {reads : PassReads} {name : RoleName}

theorem names_constraintInput : (constraintInput scaler md reads).names = md.names := by
  simp [ConstraintInput.names, constraintInput, Deployment.names, Function.comp_def]

/-- The solver starts from the counts the target runs. -/
theorem current_constraintInput (name : RoleName) :
    (constraintInput scaler md reads).current name = md.vector.count name := by
  rw [ConstraintInput.current, ReplicaVector.count]
  cases hstate : (constraintInput scaler md reads).state name with
  | none =>
    rw [state_eq_none, names_constraintInput, ← covers_vector md name, Option.not_isSome_iff_eq_none]
      at hstate
    rw [hstate]
    rfl
  | some state =>
    obtain ⟨hmem, rfl⟩ := state_spec hstate
    obtain ⟨role, hrole, rfl⟩ := mem_map.mp hmem
    obtain ⟨count, hcount⟩ := Option.isSome_iff_exists.mp
      ((covers_vector md role.name).mpr (mem_map_of_mem hrole))
    obtain ⟨other, hother, heq⟩ := mem_map.mp (SearchProblem.mem_of_lookup_eq_some hcount)
    obtain ⟨hname, rfl⟩ := Prod.mk.inj heq
    rw [hcount, inj_on_of_nodup_map md.nodup hother hrole hname]
    rfl

/-- Bounds for every role of a target, as many as it has roles, name each role once. -/
theorem nodup_bounds (hlength : scaler.spec.roles.length = md.roles.length)
    (hall : ∀ name ∈ md.names, ∃ bound ∈ scaler.spec.roles, bound.name = name) :
    (scaler.spec.roles.map (·.name)).Nodup := by
  have hsub : md.names ⊆ scaler.spec.roles.map (·.name) := by
    intro name hname
    obtain ⟨bound, hbound, rfl⟩ := hall name hname
    exact mem_map_of_mem hbound
  have hperm : md.names.Subperm (scaler.spec.roles.map (·.name)) := md.nodup.subperm hsub
  have hle : (scaler.spec.roles.map (·.name)).length ≤ md.names.length := by
    rw [length_map, hlength, Deployment.names, length_map]
  exact (hperm.perm_of_length_le hle).nodup_iff.mp md.nodup

/-- **From a legal vector the solver leads to a legal one.** -/
theorem legal_solve (hlength : scaler.spec.roles.length = md.roles.length)
    (hlegal : Legal scaler.spec md.vector) (heligible : targetRolesEligible scaler.spec md = true) :
    Legal scaler.spec
      (tabulate md.names (constraintInput scaler md reads).solveConstraints.replicas) := by
  have hratio : ∀ r ∈ scaler.spec.ratios, r.numeratorRole ∈ md.names ∧ r.denominatorRole ∈ md.names := by
    have hrole : ∀ name, name ∈ scaler.spec.ratios.flatMap (fun r =>
        [r.numeratorRole, r.denominatorRole]) → name ∈ md.names := by
      intro name hname
      have h := all_eq_true.mp heligible name (mem_append_right _ hname)
      cases hfind : md.role name with
      | none =>
        rw [hfind] at h
        exact Bool.noConfusion h
      | some role =>
        have heq : role.name = name := by simpa using find?_some hfind
        exact heq ▸ mem_map_of_mem (mem_of_find?_eq_some hfind)
    exact fun r hr => ⟨hrole _ (mem_flatMap.mpr ⟨r, hr, by simp⟩),
      hrole _ (mem_flatMap.mpr ⟨r, hr, by simp⟩)⟩
  have hstay : Legal scaler.spec (tabulate md.names (constraintInput scaler md reads).current) := by
    refine hlegal.congr fun name => ?_
    rw [lookup_tabulate, current_constraintInput]
    split_ifs with hname
    · obtain ⟨count, hcount⟩ := Option.isSome_iff_exists.mp ((covers_vector md name).mpr hname)
      rw [ReplicaVector.count, hcount]
      rfl
    · exact (Option.not_isSome_iff_eq_none.mp (mt (covers_vector md name).mp hname)).symm
  by_cases haccepted : (constraintInput scaler md reads).Accepted
  · rw [(solveConstraints_of_accepted haccepted).1]
    have hbounded : ∀ name ∈ md.names,
        ∃ bound, (constraintInput scaler md reads).bound name = some bound := by
      intro name hname
      refine Option.ne_none_iff_exists'.mp fun hnone => ?_
      exact eq_nil_iff_forall_not_mem.mp haccepted.1 name
        (mem_unbounded.mpr ⟨names_constraintInput.symm ▸ hname, hnone⟩)
    have hnodup : (scaler.spec.roles.map (·.name)).Nodup := by
      refine nodup_bounds hlength fun name hname => ?_
      obtain ⟨bound, hbound⟩ := hbounded name hname
      exact ⟨bound, bound_spec hbound⟩
    refine ⟨fun bound hbound => ?_, all_eq_true.mpr fun r hr => ?_⟩
    · obtain ⟨count, hcount, hmin, hmax⟩ := hlegal.bounds bound hbound
      have hname : bound.name ∈ md.names := (covers_vector md _).mp (hcount ▸ rfl)
      have hname' : bound.name ∈ (constraintInput scaler md reads).names :=
        names_constraintInput.symm ▸ hname
      obtain ⟨other, hother⟩ := hbounded _ hname
      obtain rfl := inj_on_of_nodup_map hnodup (bound_spec hother).1 hbound (bound_spec hother).2
      obtain ⟨role, hrole⟩ := Option.ne_none_iff_exists'.mp
        (mt state_eq_none.mp (not_not.mpr hname'))
      have hfits := haccepted.2 _ hname'
      refine ⟨_, (lookup_tabulate.trans (if_pos hname)), ?_⟩
      obtain hcurrent | ⟨hfloor, hceil⟩ := settled_mem_interval hname' hfits
      · rw [hcurrent, current_constraintInput, ReplicaVector.count, hcount]
        exact ⟨hmin, hmax⟩
      · obtain ⟨hlow, hhigh⟩ := interval_mem_bounds hrole hother hfits
        exact ⟨hlow.trans hfloor, hceil.trans hhigh⟩
    · obtain ⟨hnum, hden⟩ := hratio r hr
      rw [count_tabulate, if_pos hnum, count_tabulate, if_pos hden]
      have hr' : r ∈ (constraintInput scaler md reads).spec.ratios := hr
      obtain ⟨hn, hd⟩ | hmet := settled_ratio hr'
        (names_constraintInput.symm ▸ hnum)
      · have hsat := all_eq_true.mp hstay.ratios r hr
        rw [count_tabulate, if_pos hnum, count_tabulate, if_pos hden] at hsat
        rw [hn, hd]
        exact hsat
      · exact hmet
  · rwa [replicas_of_not_accepted haccepted]

/-- A legal vector for the roles of a target. -/
structure Fits (spec : ScalerSpec) (names : List RoleName) (v : ReplicaVector) : Prop where
  legal : Legal spec v
  covers : Covers names v

theorem fits_of_no_conflict {v : ReplicaVector} (hcovers : Covers md.names v)
    (h : currentVectorConflict scaler.spec md.roles v = none) : Fits scaler.spec md.names v :=
  ⟨(currentVectorConflict_eq_none.mp h).2, hcovers⟩

/-- Only a role of the target is wanted to grow. -/
theorem mem_names_of_wants {status : ScalerStatus} {role : RoleName}
    (h : rebalanceReceiverWantsScaleUp status md reads role = true) : role ∈ md.names := by
  by_contra hname
  have hnone := Option.not_isSome_iff_eq_none.mp (mt (covers_vector md role).mp hname)
  have hwants := of_decide_eq_true h
  rw [recommendationOf, if_neg hname, ReplicaVector.count, hnone] at hwants
  obtain hdesired | ⟨hreason, -⟩ := hwants
  · exact absurd hdesired (lt_irrefl 0)
  · exact absurd hreason (by decide)

/-- A donor's step is the current vector or a legal one. -/
theorem fits_donate {policy : RebalancePolicy} {state : RebalanceStatus} {receiver : DeploymentRole}
    (hcurrent : Fits scaler.spec md.names md.vector) {donors : List DeploymentRole}
    (hdonors : ∀ donor ∈ donors, donor.name ∈ md.names) :
    Fits scaler.spec md.names (donate scaler.spec md reads policy state receiver donors).1 := by
  induction donors with
  | nil => exact hcurrent
  | cons donor donors ih =>
    obtain ⟨hdonor, hdonors⟩ := forall_mem_cons.mp hdonors
    rw [donate]
    split
    · exact ih hdonors
    split
    · exact ih hdonors
    split
    · exact hcurrent
    · rename_i hconflict
      push Not at hconflict
      exact fits_of_no_conflict (hcurrent.covers.set hdonor _) hconflict.1

theorem donors_mem_names {receiver : RoleName} {policy : RebalancePolicy} :
    ∀ donor ∈ rebalanceDonorCandidates scaler.spec md receiver policy, donor.name ∈ md.names := by
  intro donor hdonor
  have hmem : donor ∈ md.roles := by
    unfold rebalanceDonorCandidates at hdonor
    split at hdonor
    · obtain ⟨name, -, hfind⟩ := mem_filterMap.mp hdonor
      exact mem_of_find?_eq_some hfind
    · exact (mem_filter.mp hdonor).1
  exact mem_map_of_mem hmem

theorem fits_finishRebalanceDonorRelease {state : RebalanceStatus} {r : ReplicaVector × RebalanceStatus}
    (hcurrent : Fits scaler.spec md.names md.vector) (hreceiver : state.receiverRole ∈ md.names)
    (h : finishRebalanceDonorRelease scaler.spec md reads state = some r) :
    Fits scaler.spec md.names r.1 := by
  unfold finishRebalanceDonorRelease at h
  split at h
  · exact Option.some.inj h ▸ hcurrent
  split at h
  · cases h
  · exact Option.some.inj h ▸ hcurrent
  · split at h
    · exact Option.some.inj h ▸ hcurrent
    · rename_i hconflict
      push Not at hconflict
      exact Option.some.inj h ▸ fits_of_no_conflict (hcurrent.covers.set hreceiver _) hconflict

/-- **A rebalance goes where the solver does, stays, or takes a legal step.** -/
theorem fits_planRebalance {target v : ReplicaVector} {rebalance : Option RebalanceStatus}
    (hcurrent : Fits scaler.spec md.names md.vector) (htarget : Fits scaler.spec md.names target)
    (h : planRebalance scaler md target reads = some (v, rebalance)) :
    Fits scaler.spec md.names v := by
  unfold planRebalance at h
  have hgo : ∀ {r}, some (target, r) = some (v, rebalance) → Fits scaler.spec md.names v :=
    fun h => (Prod.mk.inj (Option.some.inj h)).1 ▸ htarget
  have hstay : ∀ {r}, some (md.vector, r) = some (v, rebalance) → Fits scaler.spec md.names v :=
    fun h => (Prod.mk.inj (Option.some.inj h)).1 ▸ hcurrent
  split at h
  · exact hgo h
  split at h
  · exact hgo h
  rename_i state _
  split at h
  · split at h
    · exact hstay h
    · exact hgo h
  rename_i hwants
  split at h
  · obtain ⟨r, hr, heq⟩ := Option.map_eq_some_iff.mp h
    obtain ⟨rfl, -⟩ := Prod.mk.inj heq
    exact fits_finishRebalanceDonorRelease hcurrent (mem_names_of_wants (not_not.mp hwants)) hr
  split at h
  · split at h
    · exact hstay h
    split at h
    · exact hgo h
    · exact hstay h
  split at h
  · exact hstay h
  split at h
  · exact hgo h
  split at h
  · exact hstay h
  split at h
  · exact hgo h
  · obtain ⟨rfl, -⟩ := Prod.mk.inj (Option.some.inj h)
    exact fits_donate hcurrent donors_mem_names

/-- **A planned vector is legal.** -/
theorem fits_planned {v : ReplicaVector} {rebalance : Option RebalanceStatus}
    (heligible : targetRolesEligible scaler.spec md = true)
    (hconflict : currentVectorConflict scaler.spec md.roles md.vector = none)
    (h : planRebalance scaler md
      (tabulate md.names (constraintInput scaler md reads).solveConstraints.replicas) reads
        = some (v, rebalance)) : Fits scaler.spec md.names v := by
  obtain ⟨hlength, hlegal⟩ := currentVectorConflict_eq_none.mp hconflict
  exact fits_planRebalance ⟨hlegal, covers_vector md⟩
    ⟨legal_solve hlength hlegal heligible, covers_tabulate _ _⟩ h

end Planned

/-! ## Runs -/

/-- **What a commit leads to is legal**, if what is on record is. -/
theorem Origin.fits {scaler : Scaler} {md : Deployment} {reads : PassReads} {c : Commit}
    (h : Origin scaler md reads c)
    (hsaved : ∀ v ∈ (ScalerState.mk scaler md).saved, Fits scaler.spec md.names v) :
    Fits scaler.spec md.names c.after := by
  cases h with
  | retraction h => exact hsaved _ (by simp [ScalerState.saved, h])
  | restore h => exact hsaved _ (by simp [ScalerState.saved, h])
  | planned hspec heligible hconflict h => exact hspec ▸ fits_planned heligible hconflict h

namespace ScalerState

/-- What a run keeps: the roles, a legal vector in force, and legal vectors on record. -/
structure Kept (spec : ScalerSpec) (names : List RoleName) (st : ScalerState) : Prop where
  spec_eq : st.scaler.spec = spec
  names_eq : st.md.names = names
  legal : Legal spec st.md.vector
  saved : ∀ v ∈ st.saved, Fits spec names v

variable {spec : ScalerSpec} {names : List RoleName} {start st : ScalerState} {log : List Commit}

theorem Kept.fits_commit (h : Kept spec names st) {reads : PassReads} {c : Commit}
    (hc : st.commit reads = some c) : Fits spec names c.after := by
  obtain ⟨rfl, rfl, -, hsaved⟩ := h
  exact ((passed_plan st.scaler st.md reads).origin c hc).fits hsaved

/-- **A pass keeps it.** -/
theorem Kept.pass (h : Kept spec names st) (reads : PassReads) : Kept spec names (st.pass reads) := by
  have hpassed := passed_plan st.scaler st.md reads
  have hcurrent : Fits spec names st.md.vector := ⟨h.legal, h.names_eq ▸ covers_vector st.md⟩
  have hmd : (st.pass reads).md.names = names ∧ Legal spec (st.pass reads).md.vector := by
    cases hc : st.commit reads with
    | none =>
      rw [ScalerState.pass, hpassed.idle hc]
      exact ⟨h.names_eq, h.legal⟩
    | some c =>
      obtain ⟨writer, hwritten⟩ := hpassed.written c hc
      have hfits := h.fits_commit hc
      rw [ScalerState.pass, hwritten]
      refine ⟨names_writeVector.trans h.names_eq, hfits.legal.congr fun name => ?_⟩
      exact lookup_writeVector (h.names_eq ▸ hfits.covers) name
  refine ⟨h.spec_eq, hmd.1, hmd.2, fun v hv => ?_⟩
  obtain hv | hv := mem_append.mp hv
  · obtain ⟨cohort, hcohort, rfl⟩ := Option.map_eq_some_iff.mp (Option.mem_toList.mp hv)
    obtain hold | ⟨hnew, -⟩ := hpassed.cohort cohort hcohort
    · exact h.saved _ (by simp [ScalerState.saved, hold])
    · exact hnew ▸ hcurrent
  · obtain ⟨record, hrecord, rfl⟩ := Option.map_eq_some_iff.mp (Option.mem_toList.mp hv)
    obtain ⟨old, hold, heq, -⟩ | ⟨hnew, -⟩ := hpassed.scaleDown record hrecord
    · exact heq ▸ h.saved _ (by simp [ScalerState.saved, hold])
    · exact hnew ▸ hcurrent

theorem Kept.run (h : Kept spec names start) (hrun : Run start log st) :
    Kept spec names st ∧ ∀ c ∈ log, Legal spec c.after := by
  induction hrun with
  | start => exact ⟨h, fun c hc => nomatch hc⟩
  | pass _ reads ih =>
    refine ⟨ih.1.pass reads, fun c hc => ?_⟩
    obtain hc | hc := mem_append.mp hc
    · exact (ih.1.fits_commit (Option.mem_toList.mp hc)).legal
    · exact ih.2 c hc
  | meanwhile _ _ _ hmd ih =>
    obtain ⟨⟨hspec, hnames, hlegal, hsaved⟩, hlog⟩ := ih
    exact ⟨⟨hspec, (names_eq_of_vector_eq hmd).trans hnames, hmd ▸ hlegal, hsaved⟩, hlog⟩

end ScalerState

end GpuStack
