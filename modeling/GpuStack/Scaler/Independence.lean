import GpuStack.Scaler.Solve

/-!
# Scaler/Independence — whether a component is settled on its own

A component of roles would be settled on its own if a solver that knows no other role and no other ratio
settled it alike (`cut`), and if it were given a vector wherever there is one.  Both hold as long as
every ratio of the specification is one of the component's; a ratio elsewhere makes every vector fail
(`component_solved_iff_no_ratio_elsewhere`).
-/

namespace GpuStack

open List

namespace ConstraintInput

/-! ## The input of one component -/

/-- The specification and the states of one component. -/
def cut (input : ConstraintInput) (component : List RoleName) : ConstraintInput :=
  { input with
    spec := { input.spec with
      roles := input.spec.roles.filter (·.name ∈ component)
      ratios := input.spec.ratios.filter (·.inside component) }
    roles := input.roles.filter (·.name ∈ component) }

/-- A vector lies in the ranges a direction leaves; without one no role moves. -/
def InRange (input : ConstraintInput) (component : List RoleName) (v : RoleName → ℤ) : Prop :=
  ∀ name ∈ component,
    match input.direction component with
    | some d => input.low d name ≤ v name ∧ v name ≤ input.high d name
    | none => max (input.interval name).floor (input.current name) ≤ v name ∧
        v name ≤ min (input.interval name).ceil (input.current name)

/-- The search for a component stays within its budget. -/
def WithinBudget (input : ConstraintInput) (component : List RoleName) : Prop :=
  ∀ d, input.direction component = some d → (input.problem component d).WithinBudget

/-- **A component is solved completely**: if a vector in its ranges meets its ratios, it is given one. -/
def SolvedCompletely (input : ConstraintInput) (component : List RoleName) : Prop :=
  (∃ v, input.InRange component v ∧ ∀ r ∈ input.spec.ratios, r.inside component = true →
    r.Met (v r.numeratorRole) (v r.denominatorRole)) →
  input.InRange component input.solveConstraints.replicas ∧
    ratiosSatisfied input.solveConstraints.replicas
      (input.spec.ratios.filter (·.inside component)) = true

/-- **A component is solved on its own**: its counts and its reasons are those of its own input. -/
def SolvedAlone (input : ConstraintInput) (component : List RoleName) : Prop :=
  ∀ name ∈ component,
    input.solveConstraints.replicas name = (input.cut component).solveConstraints.replicas name ∧
    input.solveConstraints.reasons name = (input.cut component).solveConstraints.reasons name

variable {input : ConstraintInput} {component : List RoleName} {name a : RoleName}

theorem find_filter_mem {α : Type} {key : α → RoleName} {l : List α} (h : name ∈ component) :
    (l.filter fun x => decide (key x ∈ component)).reverse.find? (fun x => decide (key x = name))
      = l.reverse.find? fun x => decide (key x = name) := by
  rw [← filter_reverse, find?_filter]
  congr 1
  funext x
  by_cases heq : key x = name <;> simp [heq, h]

/-- The cut input says of the component's roles what the whole one does. -/
theorem state_cut (h : name ∈ component) : (input.cut component).state name = input.state name :=
  find_filter_mem h

theorem bound_cut (h : name ∈ component) : (input.cut component).bound name = input.bound name :=
  find_filter_mem h

theorem current_cut (h : name ∈ component) :
    (input.cut component).current name = input.current name := by
  rw [current, state_cut h, current]

theorem raw_cut (h : name ∈ component) : (input.cut component).raw name = input.raw name := by
  rw [raw, state_cut h, raw]

theorem interval_cut (h : name ∈ component) :
    (input.cut component).interval name = input.interval name := by
  rw [interval, state_cut h, bound_cut h, interval]
  rfl

theorem mem_names_cut : name ∈ (input.cut component).names ↔ name ∈ input.names ∧ name ∈ component := by
  simp only [names, cut, mem_map, mem_filter, decide_eq_true_eq]
  constructor
  · rintro ⟨role, ⟨hrole, hmem⟩, rfl⟩
    exact ⟨⟨role, hrole, rfl⟩, hmem⟩
  · rintro ⟨⟨role, hrole, rfl⟩, hmem⟩
    exact ⟨role, ⟨hrole, hmem⟩, rfl⟩

theorem Accepted.cut (h : input.Accepted) (component : List RoleName) : (input.cut component).Accepted := by
  refine ⟨eq_nil_iff_forall_not_mem.mpr fun name hname => ?_, fun name hname => ?_⟩
  · obtain ⟨hmem, hnone⟩ := mem_unbounded.mp hname
    obtain ⟨hold, hin⟩ := mem_names_cut.mp hmem
    rw [bound_cut hin] at hnone
    exact eq_nil_iff_forall_not_mem.mp h.1 name (mem_unbounded.mpr ⟨hold, hnone⟩)
  · obtain ⟨hold, hin⟩ := mem_names_cut.mp hname
    rw [fits, interval_cut hin]
    exact h.2 name hold

/-! ## The component of the cut input -/

theorem tabulate_congr {f g : RoleName → ℤ} (h : ∀ name ∈ component, f name = g name) :
    tabulate component f = tabulate component g :=
  map_congr_left fun name hname => by rw [h name hname]

theorem mem_ratioGraph_cut (input : ConstraintInput)
    (ha : a ∈ connectedComponent input.spec.ratios name) {b : RoleName} :
    b ∈ ratioGraph (input.cut (connectedComponent input.spec.ratios name)).spec.ratios a ↔
      b ∈ ratioGraph input.spec.ratios a := by
  simp only [mem_ratioGraph, cut, mem_filter]
  refine ⟨fun ⟨r, ⟨hr, _⟩, hends⟩ => ⟨r, hr, hends⟩, fun ⟨r, hr, hends⟩ => ⟨r, ⟨hr, ?_⟩, hends⟩⟩
  refine inside_of_mem hr (hends.imp ?_ ?_)
  · exact fun h => h.1 ▸ ha
  · exact fun h => h.1 ▸ ha

/-- The component is one of its own input. -/
theorem connectedComponent_cut (input : ConstraintInput) (name : RoleName) :
    connectedComponent (input.cut (connectedComponent input.spec.ratios name)).spec.ratios name
      = connectedComponent input.spec.ratios name := by
  have hagree : ∀ a, a ∈ connectedComponent input.spec.ratios name → ∀ b,
      b ∈ ratioGraph (input.cut (connectedComponent input.spec.ratios name)).spec.ratios a ↔
        b ∈ ratioGraph input.spec.ratios a := fun a ha b => mem_ratioGraph_cut input ha
  have hclosed : ∀ a, a ∈ connectedComponent input.spec.ratios name →
      ∀ b ∈ ratioGraph input.spec.ratios a, b ∈ connectedComponent input.spec.ratios name :=
    fun a ha b hb => closed_connectedComponent ha hb
  refine (sortNames_eq_connectedComponent (nodup_sortNames.mp nodup_connectedComponent)
    fun a => ?_).symm
  rw [← mem_sortNames]
  refine mem_connectedComponent.trans ⟨fun h => ?_, fun h => ?_⟩
  · exact (h.of_agree hclosed (fun a ha b => (hagree a ha b).mpr) self_mem_connectedComponent).2
  · exact (h.of_agree (fun a ha b hb => hclosed a ha b ((hagree a ha b).mp hb))
      (fun a ha b => (hagree a ha b).mp) self_mem_connectedComponent).2

/-! ## What a component is given -/

theorem any_congr_mem {p q : RoleName → Bool} (h : ∀ name ∈ component, p name = q name) :
    component.any p = component.any q := by
  rw [Bool.eq_iff_iff, any_eq_true, any_eq_true]
  exact exists_congr fun name => and_congr_right fun hname => by rw [h name hname]

theorem direction_cut : (input.cut component).direction component = input.direction component := by
  unfold direction
  rw [any_congr_mem fun name h => by rw [current_cut h, raw_cut h],
    any_congr_mem (p := fun name => decide ((input.cut component).raw name < _)) fun name h => by
      rw [current_cut h, raw_cut h]]

variable {d : Direction} {v : RoleName → ℤ} {ratios : List RoleRatio}

theorem desired_cut (h : name ∈ component) :
    (input.cut component).low d name = input.low d name ∧
    (input.cut component).high d name = input.high d name ∧
    (input.cut component).desired d name = input.desired d name := by
  have hlow : (input.cut component).low d name = input.low d name := by
    cases d <;> simp only [low, interval_cut h, current_cut h]
  have hhigh : (input.cut component).high d name = input.high d name := by
    cases d <;> simp only [high, interval_cut h, current_cut h]
  exact ⟨hlow, hhigh, by rw [desired, hlow, hhigh, raw_cut h, desired]⟩

/-- With no ratio elsewhere the component is searched alike. -/
theorem problem_cut (hratios : (input.cut component).spec.ratios = input.spec.ratios) :
    (input.cut component).problem component d = input.problem component d := by
  unfold problem
  rw [hratios, tabulate_congr fun name h => (desired_cut h).1,
    tabulate_congr fun name h => (desired_cut h).2.1, tabulate_congr fun name h => (desired_cut h).2.2]

theorem fullProblem_cut (hratios : (input.cut component).spec.ratios = input.spec.ratios) :
    (input.cut component).fullProblem component d = input.fullProblem component d := by
  have hlow : (tabulate component fun name => ((input.cut component).interval name).floor)
      = tabulate component fun name => (input.interval name).floor :=
    tabulate_congr fun name h => by rw [interval_cut h]
  have hhigh : (tabulate component fun name => ((input.cut component).interval name).ceil)
      = tabulate component fun name => (input.interval name).ceil :=
    tabulate_congr fun name h => by rw [interval_cut h]
  rw [fullProblem, problem_cut hratios, hlow, hhigh, fullProblem]

/-- **With no ratio elsewhere the component is projected alike.** -/
theorem projectComponent_cut (hratios : (input.cut component).spec.ratios = input.spec.ratios)
    (h : name ∈ component) :
    ((input.cut component).projectComponent component).replicas name
      = (input.projectComponent component).replicas name ∧
    ((input.cut component).projectComponent component).reasons name
      = (input.projectComponent component).reasons name := by
  have hcurrent : tabulate component (input.cut component).current = tabulate component input.current :=
    tabulate_congr fun name h => current_cut h
  unfold projectComponent
  rw [direction_cut, hratios, hcurrent]
  cases input.direction component with
  | none => exact ⟨current_cut h, rfl⟩
  | some d =>
    dsimp only
    rw [problem_cut hratios, fullProblem_cut hratios]
    cases (input.problem component d).searchComponent with
    | none => exact ⟨current_cut h, rfl⟩
    | some best =>
      dsimp only
      rw [(desired_cut h).2.2, current_cut h]
      exact ⟨rfl, rfl⟩

/-- The ratios of a component are among those of the specification. -/
theorem ratiosSatisfied_filter (h : ratiosSatisfied v ratios = true) :
    ratiosSatisfied v (ratios.filter (·.inside component)) = true :=
  all_eq_true.mpr fun r hr => all_eq_true.mp h r (mem_filter.mp hr).1

/-- **A component whose ratios no vector meets stays as it is.** -/
theorem projectComponent_of_unmet
    (h : ¬ ∃ v, ratiosSatisfied v
      (input.spec.ratios.filter (·.inside (connectedComponent input.spec.ratios name))) = true) :
    input.projectComponent (connectedComponent input.spec.ratios name)
      = ⟨input.current, fun _ => some .ratioConflict⟩ := by
  have hsearch : ∀ p : SearchProblem, p.Coupled → p.ratios = input.spec.ratios →
      p.searchComponent = none := by
    intro p hp hratios
    by_contra hfound
    obtain ⟨v, hv⟩ := Option.ne_none_iff_exists'.mp hfound
    obtain ⟨-, -, hmet⟩ := SearchProblem.searchComponent_sound hp hv
    exact h ⟨_, ratiosSatisfied_filter (hratios ▸ hmet)⟩
  have hcurrent : ¬ ratiosSatisfied
      (tabulate (connectedComponent input.spec.ratios name) input.current).count input.spec.ratios
        = true := fun hmet => h ⟨_, ratiosSatisfied_filter hmet⟩
  unfold projectComponent
  cases input.direction (connectedComponent input.spec.ratios name) with
  | none =>
    dsimp only
    rw [if_neg hcurrent]
  | some d =>
    dsimp only
    rw [hsearch _ (coupled_problem d) rfl, hsearch _ (coupled_fullProblem d) rfl]
    rfl

/-! ## Reasons -/

theorem componentReason_eq_none : input.componentReason = none ↔ ∀ name ∈ input.names,
    ∀ a ∈ connectedComponent input.spec.ratios name,
      (input.settle (connectedComponent input.spec.ratios name)).reasons a = none := by
  rw [componentReason, findSome?_eq_none_iff]
  refine ⟨fun h name hname a ha => ?_, fun h a ha => ?_⟩
  · have hnone := h a (mem_flatten.mpr ⟨_, mem_components.mpr ⟨name, hname, rfl⟩, ha⟩)
    rwa [settled_eq hname ha] at hnone
  · obtain ⟨component, hcomponent, hmem⟩ := mem_flatten.mp ha
    obtain ⟨name, hname, rfl⟩ := mem_components.mp hcomponent
    rw [settled_eq hname hmem]
    exact h name hname a hmem

/-- Where no other role has a ratio, the component's reasons are the only ones. -/
theorem componentReason_eq_none_of_alone (hname : name ∈ input.names)
    (hrest : ∀ other ∈ input.names, other ∉ connectedComponent input.spec.ratios name →
      ratioGraph input.spec.ratios other = []) :
    input.componentReason = none ↔ ∀ a ∈ connectedComponent input.spec.ratios name,
      (input.settle (connectedComponent input.spec.ratios name)).reasons a = none := by
  rw [componentReason_eq_none]
  refine ⟨fun h => h name hname, fun h other hother a ha => ?_⟩
  by_cases hin : other ∈ connectedComponent input.spec.ratios name
  · rw [connectedComponent_eq hin] at ha ⊢
    exact h a ha
  · rw [(settle_alone (hrest other hother hin)).2]

theorem held_cut (h : name ∈ component)
    (hsettled : ((input.cut component).settled name).1 = (input.settled name).1) :
    (input.cut component).held name = input.held name := by
  unfold held
  rw [hsettled, decide_eq_decide]
  refine exists_congr fun role => ?_
  simp only [cut, mem_filter, decide_eq_true_eq, and_assoc, and_congr_right_iff]
  intro _
  exact ⟨fun hrole => hrole.2, fun hrole => ⟨hrole.1 ▸ h, hrole⟩⟩

/-- **A component that is settled alike, with the same roles held, is solved on its own.** -/
theorem SolvedAlone.of_settle (h : input.Accepted) (hname : name ∈ input.names)
    (hsettle : ∀ a ∈ connectedComponent input.spec.ratios name,
      ((input.cut (connectedComponent input.spec.ratios name)).settle
        (connectedComponent input.spec.ratios name)).replicas a
        = (input.settle (connectedComponent input.spec.ratios name)).replicas a ∧
      ((input.cut (connectedComponent input.spec.ratios name)).settle
        (connectedComponent input.spec.ratios name)).reasons a
        = (input.settle (connectedComponent input.spec.ratios name)).reasons a)
    (hreason : (input.cut (connectedComponent input.spec.ratios name)).componentReason = none ↔
      input.componentReason = none) :
    input.SolvedAlone (connectedComponent input.spec.ratios name) := by
  intro a ha
  have hname' : name ∈ (input.cut (connectedComponent input.spec.ratios name)).names :=
    mem_names_cut.mpr ⟨hname, self_mem_connectedComponent⟩
  have hcut := settled_eq hname' ((connectedComponent_cut input name).symm ▸ ha)
  rw [connectedComponent_cut] at hcut
  have hwhole := settled_eq hname ha
  have hsame : (input.cut (connectedComponent input.spec.ratios name)).settled a
      = input.settled a := by
    rw [hcut, hwhole, (hsettle a ha).1, (hsettle a ha).2]
  obtain ⟨hreplicas, hreasons⟩ := solveConstraints_of_accepted h
  obtain ⟨hreplicas', hreasons'⟩ := solveConstraints_of_accepted
    (h.cut (connectedComponent input.spec.ratios name))
  rw [hreplicas, hreplicas', hreasons, hreasons']
  refine ⟨by dsimp only; rw [hsame], ?_⟩
  simp only [hsame, hreason, held_cut ha (congrArg Prod.fst hsame)]

/-! ## A ratio elsewhere -/

/-- A vector that stands where it is wanted, and meets what the component asks. -/
def standing (ratios : List RoleRatio) (component : List RoleName) (v : RoleName → ℤ) :
    ConstraintInput where
  spec :=
    { roles := component.map fun name => { name, maxReplicas := 1 }
      ratios }
  roles := component.map fun name =>
    { name, currentReplicas := v name, rawRecommendedReplicas := v name }
  now := 0

section Standing

variable {ratios : List RoleRatio} {v : RoleName → ℤ}

theorem find_map_of_mem {α : Type} {f : RoleName → α} {key : α → RoleName}
    (hkey : ∀ name, key (f name) = name) (h : name ∈ component) :
    (component.map f).reverse.find? (fun x => decide (key x = name)) = some (f name) := by
  cases hfind : (component.map f).reverse.find? (fun x => decide (key x = name)) with
  | none =>
    have hmem : f name ∈ (component.map f).reverse :=
      mem_reverse.mpr (mem_map_of_mem h)
    exact absurd (decide_eq_true (hkey name)) (find?_eq_none.mp hfind _ hmem)
  | some x =>
    obtain ⟨other, -, rfl⟩ := mem_map.mp (mem_reverse.mp (mem_of_find?_eq_some hfind))
    have hother : key (f other) = name := by simpa using find?_some hfind
    rw [← hother, hkey]

theorem state_standing (h : name ∈ component) : (standing ratios component v).state name =
    some { name, currentReplicas := v name, rawRecommendedReplicas := v name } :=
  find_map_of_mem (f := fun name =>
    ({ name, currentReplicas := v name, rawRecommendedReplicas := v name } : RoleState))
    (fun _ => rfl) h

theorem bound_standing (h : name ∈ component) :
    (standing ratios component v).bound name = some { name, maxReplicas := 1 } :=
  find_map_of_mem (f := fun name => ({ name, maxReplicas := 1 } : RoleBounds)) (fun _ => rfl) h

theorem names_standing : (standing ratios component v).names = component := by
  simp [names, standing, Function.comp_def]

theorem current_standing (h : name ∈ component) :
    (standing ratios component v).current name = v name ∧
      (standing ratios component v).raw name = v name := by
  rw [current, raw, state_standing h]
  exact ⟨rfl, rfl⟩

theorem accepted_standing : (standing ratios component v).Accepted := by
  refine ⟨eq_nil_iff_forall_not_mem.mpr fun name hname => ?_, fun name hname => ?_⟩
  · obtain ⟨hmem, hnone⟩ := mem_unbounded.mp hname
    rw [names_standing] at hmem
    rw [bound_standing hmem] at hnone
    exact absurd hnone (Option.some_ne_none _)
  · rw [names_standing] at hname
    have hbound : ({ name, maxReplicas := 1 } : RoleBounds).minimum
        ≤ ({ name, maxReplicas := 1 } : RoleBounds).maxReplicas := le_refl (1 : ℤ)
    rw [fits, interval, state_standing hname, bound_standing hname]
    obtain ⟨-, hfloor, hceil, -⟩ := roleInterval_spec (standing ratios component v)
      { name, currentReplicas := v name, rawRecommendedReplicas := v name }
      ((standing ratios component v).history
        { name, currentReplicas := v name, rawRecommendedReplicas := v name }) hbound
    exact decide_eq_true (hfloor.trans hceil)

theorem direction_standing : (standing ratios component v).direction component = none := by
  have hup : component.any (fun name => decide ((standing ratios component v).current name
      < (standing ratios component v).raw name)) = false :=
    any_eq_false.mpr fun name h => by simp [current_standing h]
  have hdown : component.any (fun name => decide ((standing ratios component v).raw name
      < (standing ratios component v).current name)) = false :=
    any_eq_false.mpr fun name h => by simp [current_standing h]
  rw [direction, hup, hdown]
  rfl

/-- Where nothing is wanted elsewhere, the reasons are those of the components. -/
theorem reasons_of_standing (h : input.Accepted)
    (hstill : ∀ role ∈ input.roles, role.rawRecommendedReplicas = role.currentReplicas) :
    input.solveConstraints.reasons = fun name => (input.settled name).2 := by
  have hheld : ∀ name, input.held name = false := by
    intro name
    refine decide_eq_false ?_
    rintro ⟨role, hrole, -, hne, -⟩
    exact hne (hstill role hrole)
  rw [(solveConstraints_of_accepted h).2]
  simp [hheld]

/-- Without a direction a component is held for its ratios alone. -/
theorem reasons_of_no_direction (hname : name ∈ input.names) (h : input.Accepted)
    (hstill : ∀ role ∈ input.roles, role.rawRecommendedReplicas = role.currentReplicas)
    (hratio : ratioGraph input.spec.ratios name ≠ [])
    (hnone : input.direction (connectedComponent input.spec.ratios name) = none) :
    input.solveConstraints.reasons name =
      if ratiosSatisfied (tabulate (connectedComponent input.spec.ratios name) input.current).count
        input.spec.ratios then none else some .ratioConflict := by
  rw [reasons_of_standing h hstill]
  dsimp only
  rw [settled_eq hname self_mem_connectedComponent, settle_eq_projectComponent hratio,
    projectComponent, hnone]

/-- **A ratio elsewhere reports a conflict where there is none.** -/
theorem not_solvedAlone_standing (hratio : ratioGraph ratios name ≠ []) {r : RoleRatio} (hr : r ∈ ratios)
    (hout : r.inside (connectedComponent ratios name) = false)
    (hv : ratiosSatisfied v (ratios.filter (·.inside (connectedComponent ratios name))) = true) :
    ¬ (standing ratios (connectedComponent ratios name) v).SolvedAlone
      (connectedComponent ratios name) := by
  set input := standing ratios (connectedComponent ratios name) v
  have hself : name ∈ connectedComponent ratios name := self_mem_connectedComponent
  have hname : name ∈ input.names := by rwa [names_standing]
  have hstill : ∀ role ∈ input.roles, role.rawRecommendedReplicas = role.currentReplicas := by
    intro role hrole
    obtain ⟨n, -, rfl⟩ := mem_map.mp hrole
    rfl
  have hratio' : ratioGraph (input.cut (connectedComponent ratios name)).spec.ratios name ≠ [] := by
    obtain ⟨b, hb⟩ := exists_mem_of_ne_nil _ hratio
    exact ne_nil_of_mem ((mem_ratioGraph_cut input hself).mpr hb)
  have hcomponent : connectedComponent (input.cut (connectedComponent ratios name)).spec.ratios name
      = connectedComponent ratios name := connectedComponent_cut input name
  -- The whole solver reads the denominator of the other ratio as zero.
  have hwhole : ¬ ratiosSatisfied (tabulate (connectedComponent ratios name) input.current).count ratios
      = true := by
    intro hmet
    have hden : r.denominatorRole ∉ connectedComponent ratios name := fun hden => by
      rw [inside_of_mem hr (.inr hden)] at hout
      exact Bool.noConfusion hout
    have hsat := of_decide_eq_true (all_eq_true.mp hmet r hr)
    have hzero : (tabulate (connectedComponent ratios name) input.current).count r.denominatorRole = 0 := by
      rw [count_tabulate, if_neg hden]
    rw [hzero] at hsat
    exact absurd hsat.1 (lt_irrefl 0)
  -- The solver of the component alone reads only counts that are there.
  have halone : ratiosSatisfied (tabulate (connectedComponent ratios name)
      (input.cut (connectedComponent ratios name)).current).count
      (input.cut (connectedComponent ratios name)).spec.ratios = true := by
    rw [tabulate_congr (g := v) fun n hn => (current_cut hn).trans (current_standing hn).1]
    refine all_eq_true.mpr fun r hr => ?_
    obtain ⟨hnum, hden⟩ := of_decide_eq_true (mem_filter.mp hr).2
    rw [count_tabulate, if_pos hnum, count_tabulate, if_pos hden]
    exact all_eq_true.mp hv r hr
  intro hsolved
  have hreasons := (hsolved name hself).2
  rw [reasons_of_no_direction hname accepted_standing hstill hratio direction_standing,
    reasons_of_no_direction (mem_names_cut.mpr ⟨hname, hself⟩) (accepted_standing.cut _)
      (fun role hrole => hstill role (mem_filter.mp hrole).1) hratio'
      (by rw [hcomponent, direction_cut]; exact direction_standing), hcomponent, if_pos halone] at hreasons
  exact Option.some_ne_none _ ((if_neg hwhole).symm.trans hreasons)

end Standing

/-! ## When a component is solved on its own -/

/-- Every ratio of the specification is one of the component's, or no vector meets the component's. -/
def Separate (ratios : List RoleRatio) (component : List RoleName) : Prop :=
  (∀ r ∈ ratios, r.inside component = true) ∨
    ¬ ∃ v, ratiosSatisfied v (ratios.filter (·.inside component)) = true

theorem filter_inside_eq_self (h : ∀ r ∈ ratios, r.inside component = true) :
    ratios.filter (·.inside component) = ratios :=
  filter_eq_self.mpr h

/-- Roles outside the only component with ratios have none. -/
theorem ratioGraph_eq_nil_of_notMem (h : ∀ r ∈ ratios, r.inside component = true)
    (hout : a ∉ component) :
    ratioGraph ratios a = [] := by
  refine eq_nil_iff_forall_not_mem.mpr fun b hb => ?_
  obtain ⟨r, hr, hends⟩ := mem_ratioGraph.mp hb
  obtain ⟨hnum, hden⟩ := of_decide_eq_true (h r hr)
  obtain ⟨rfl, -⟩ | ⟨rfl, -⟩ := hends
  · exact hout hnum
  · exact hout hden

/-- The names of a component's own input are all in it. -/
theorem componentReason_cut (hname : name ∈ input.names) :
    (input.cut (connectedComponent input.spec.ratios name)).componentReason = none ↔
      ∀ a ∈ connectedComponent input.spec.ratios name,
        ((input.cut (connectedComponent input.spec.ratios name)).settle
          (connectedComponent input.spec.ratios name)).reasons a = none := by
  have hname' : name ∈ (input.cut (connectedComponent input.spec.ratios name)).names :=
    mem_names_cut.mpr ⟨hname, self_mem_connectedComponent⟩
  have h := componentReason_eq_none_of_alone hname' fun other hother hout => by
      rw [connectedComponent_cut] at hout
      exact absurd (mem_names_cut.mp hother).2 hout
  rwa [connectedComponent_cut] at h

theorem settle_cut_eq_projectComponent (hratio : ratioGraph input.spec.ratios name ≠ []) :
    (input.cut (connectedComponent input.spec.ratios name)).settle
      (connectedComponent input.spec.ratios name)
      = (input.cut (connectedComponent input.spec.ratios name)).projectComponent
        (connectedComponent input.spec.ratios name) := by
  obtain ⟨b, hb⟩ := exists_mem_of_ne_nil _ hratio
  have h := settle_eq_projectComponent
    (ne_nil_of_mem ((mem_ratioGraph_cut input self_mem_connectedComponent).mpr hb))
  rwa [connectedComponent_cut] at h

/-- **A component with every ratio is solved on its own.** -/
theorem solvedAlone_of_inside (h : input.Accepted) (hname : name ∈ input.names)
    (hratio : ratioGraph input.spec.ratios name ≠ [])
    (hinside : ∀ r ∈ input.spec.ratios,
      r.inside (connectedComponent input.spec.ratios name) = true) :
    input.SolvedAlone (connectedComponent input.spec.ratios name) := by
  have hratios : (input.cut (connectedComponent input.spec.ratios name)).spec.ratios
      = input.spec.ratios := filter_inside_eq_self hinside
  have hsettle : ∀ a ∈ connectedComponent input.spec.ratios name, _ ∧ _ := fun a ha =>
    projectComponent_cut hratios ha
  rw [← settle_cut_eq_projectComponent hratio, ← settle_eq_projectComponent hratio] at hsettle
  refine .of_settle h hname hsettle ?_
  rw [componentReason_cut hname, componentReason_eq_none_of_alone hname fun other _ hout =>
    ratioGraph_eq_nil_of_notMem hinside hout]
  exact forall₂_congr fun a ha => by rw [(hsettle a ha).2]

/-- **A component whose ratios no vector meets is too**: it stays, in conflict. -/
theorem solvedAlone_of_unmet (h : input.Accepted) (hname : name ∈ input.names)
    (hratio : ratioGraph input.spec.ratios name ≠ [])
    (hunmet : ¬ ∃ v, ratiosSatisfied v (input.spec.ratios.filter
      (·.inside (connectedComponent input.spec.ratios name))) = true) :
    input.SolvedAlone (connectedComponent input.spec.ratios name) := by
  have hwhole := projectComponent_of_unmet hunmet
  have hunmet' : ¬ ∃ v, ratiosSatisfied v
      ((input.cut (connectedComponent input.spec.ratios name)).spec.ratios.filter (·.inside
        (connectedComponent (input.cut (connectedComponent input.spec.ratios name)).spec.ratios name)))
        = true := by
    rw [connectedComponent_cut]
    rintro ⟨v, hv⟩
    refine hunmet ⟨v, ?_⟩
    simpa [cut, filter_filter] using hv
  have hcut := projectComponent_of_unmet hunmet'
  rw [connectedComponent_cut, ← settle_cut_eq_projectComponent hratio] at hcut
  rw [← settle_eq_projectComponent hratio] at hwhole
  refine .of_settle h hname (fun a ha => ?_) ?_
  · rw [hcut, hwhole]
    exact ⟨current_cut ha, rfl⟩
  · rw [componentReason_cut hname, componentReason_eq_none, hcut]
    refine ⟨fun hnone => ?_, fun hnone => ?_⟩
    · exact absurd (hnone name self_mem_connectedComponent) (Option.some_ne_none _)
    · have := hnone name hname name self_mem_connectedComponent
      rw [hwhole] at this
      exact absurd this (Option.some_ne_none _)

theorem ratiosSatisfied_congr {w : RoleName → ℤ} (h : ∀ a ∈ component, v a = w a)
    (hw : ratiosSatisfied w (ratios.filter (·.inside component)) = true) :
    ratiosSatisfied v (ratios.filter (·.inside component)) = true := by
  refine all_eq_true.mpr fun r hr => ?_
  obtain ⟨hnum, hden⟩ := of_decide_eq_true (mem_filter.mp hr).2
  rw [h _ hnum, h _ hden]
  exact all_eq_true.mp hw r hr

theorem ratiosSatisfied_of_met
    (h : ∀ r ∈ ratios, r.inside component = true → r.Met (v r.numeratorRole) (v r.denominatorRole)) :
    ratiosSatisfied v (ratios.filter (·.inside component)) = true :=
  all_eq_true.mpr fun r hr =>
    (h r (mem_filter.mp hr).1 (mem_filter.mp hr).2).satisfied

/-- **A component with every ratio is solved completely, within its budget.** -/
theorem solvedCompletely_of_inside (h : input.Accepted) (hname : name ∈ input.names)
    (hratio : ratioGraph input.spec.ratios name ≠ [])
    (hbudget : input.WithinBudget (connectedComponent input.spec.ratios name))
    (hinside : ∀ r ∈ input.spec.ratios,
      r.inside (connectedComponent input.spec.ratios name) = true) :
    input.SolvedCompletely (connectedComponent input.spec.ratios name) := by
  rintro ⟨v, hrange, hmet⟩
  have hreplicas : ∀ a ∈ connectedComponent input.spec.ratios name,
      input.solveConstraints.replicas a
        = (input.projectComponent (connectedComponent input.spec.ratios name)).replicas a := by
    intro a ha
    rw [(solveConstraints_of_accepted h).1]
    dsimp only
    rw [settled_eq hname ha, settle_eq_projectComponent hratio]
  unfold InRange at hrange ⊢
  cases hdirection : input.direction (connectedComponent input.spec.ratios name) with
  | none =>
    rw [hdirection] at hrange
    have hsame : ∀ a ∈ connectedComponent input.spec.ratios name,
        input.solveConstraints.replicas a = v a := by
      intro a ha
      obtain ⟨hlow, hhigh⟩ := hrange a ha
      rw [hreplicas a ha, projectComponent, hdirection]
      exact le_antisymm ((le_max_right _ _).trans hlow) (hhigh.trans (min_le_right _ _))
    refine ⟨fun a ha => ?_, ratiosSatisfied_congr hsame (ratiosSatisfied_of_met hmet)⟩
    rw [hsame a ha]
    exact hrange a ha
  | some d =>
    rw [hdirection] at hrange
    have htable : ∀ (f : RoleName → ℤ), ∀ a ∈ connectedComponent input.spec.ratios name,
        (tabulate (connectedComponent input.spec.ratios name) f).count a = f a :=
      fun f a ha => by rw [count_tabulate, if_pos ha]
    have hfound : (input.problem (connectedComponent input.spec.ratios name) d).searchComponent.isSome :=
      SearchProblem.searchComponent_complete (coupled_problem d)
        (ne_nil_of_mem self_mem_connectedComponent) (hbudget d hdirection) hinside
        (fun a ha => by
          obtain ⟨hlow, hhigh⟩ := hrange a ha
          exact ⟨(htable _ a ha).trans_le hlow, hhigh.trans_eq (htable _ a ha).symm⟩)
        fun r hr => hmet r hr (hinside r hr)
    obtain ⟨best, hbest⟩ := Option.isSome_iff_exists.mp hfound
    obtain ⟨hin, -, hsat⟩ := SearchProblem.searchComponent_sound (coupled_problem d) hbest
    have hsame : ∀ a ∈ connectedComponent input.spec.ratios name,
        input.solveConstraints.replicas a = best.count a := by
      intro a ha
      rw [hreplicas a ha, projectComponent, hdirection]
      dsimp only
      rw [hbest]
    refine ⟨fun a ha => ?_, ratiosSatisfied_congr hsame (ratiosSatisfied_filter hsat)⟩
    obtain ⟨hlow, hhigh⟩ := hin a ha
    rw [hsame a ha]
    exact ⟨(htable _ a ha).symm.trans_le hlow, hhigh.trans_eq (htable _ a ha)⟩

/-- **A component is solved completely and on its own, whatever else an input holds, exactly if no ratio
is elsewhere, or no vector meets its own.** -/
theorem component_solved_iff_no_ratio_elsewhere {ratios : List RoleRatio}
    (hratio : ratioGraph ratios name ≠ []) :
    (∀ input : ConstraintInput, input.spec.ratios = ratios → input.Accepted → name ∈ input.names →
      input.WithinBudget (connectedComponent ratios name) →
      input.SolvedCompletely (connectedComponent ratios name) ∧
        input.SolvedAlone (connectedComponent ratios name)) ↔
    Separate ratios (connectedComponent ratios name) := by
  refine ⟨fun hall => ?_, ?_⟩
  · by_contra hseparate
    obtain ⟨hout, hmet⟩ := not_or.mp hseparate
    obtain ⟨v, hv⟩ := not_not.mp hmet
    push Not at hout
    obtain ⟨r, hr, hout⟩ := hout
    refine not_solvedAlone_standing hratio hr (Bool.eq_false_iff.mpr hout) hv
      (hall (standing ratios (connectedComponent ratios name) v) rfl accepted_standing ?_ ?_).2
    · rw [names_standing]
      exact self_mem_connectedComponent
    · intro d hd
      rw [direction_standing] at hd
      cases hd
  · rintro (hinside | hunmet) input rfl h hname hbudget
    · exact ⟨solvedCompletely_of_inside h hname hratio hbudget hinside,
        solvedAlone_of_inside h hname hratio hinside⟩
    · refine ⟨fun ⟨v, _, hv⟩ => absurd ⟨v, ratiosSatisfied_of_met hv⟩ hunmet, ?_⟩
      exact solvedAlone_of_unmet h hname hratio hunmet

/-! ## Two pairs of roles -/

def embedRole : RoleName := ⟨"embed", by decide⟩

def rankRole : RoleName := ⟨"rank", by decide⟩

/-- The prefill role is to follow the decode role; two other roles keep a ratio of their own. -/
def twoPairs : ConstraintInput where
  spec :=
    { roles := [prefillRole, decodeRole, embedRole, rankRole].map fun name =>
        { name, maxReplicas := 4 }
      ratios := [evenRatio prefillRole decodeRole, evenRatio embedRole rankRole] }
  roles :=
    [{ name := prefillRole, currentReplicas := 1, rawRecommendedReplicas := 2 },
      { name := decodeRole, currentReplicas := 2, rawRecommendedReplicas := 2 },
      { name := embedRole, currentReplicas := 1, rawRecommendedReplicas := 1 },
      { name := rankRole, currentReplicas := 1, rawRecommendedReplicas := 1 }]
  now := 0

/-- With its ratio alone, the pair is always solved. -/
theorem lone_pair_solved : ratioGraph [evenRatio prefillRole decodeRole] prefillRole ≠ [] ∧
    ∀ input : ConstraintInput, input.spec.ratios = [evenRatio prefillRole decodeRole] →
      input.Accepted → prefillRole ∈ input.names →
      input.WithinBudget (connectedComponent [evenRatio prefillRole decodeRole] prefillRole) →
      input.SolvedCompletely (connectedComponent [evenRatio prefillRole decodeRole] prefillRole) ∧
        input.SolvedAlone (connectedComponent [evenRatio prefillRole decodeRole] prefillRole) :=
  ⟨by decide +kernel, (component_solved_iff_no_ratio_elsewhere (by decide +kernel)).mpr
    (.inl (by decide +kernel))⟩

/-- **Beside the other pair it is not**: two prefill roles would do, and are not given. -/
theorem pair_unsolved_beside_another :
    twoPairs.Accepted ∧
    twoPairs.WithinBudget (connectedComponent twoPairs.spec.ratios prefillRole) ∧
    ¬ twoPairs.SolvedCompletely (connectedComponent twoPairs.spec.ratios prefillRole) ∧
    ¬ twoPairs.SolvedAlone (connectedComponent twoPairs.spec.ratios prefillRole) := by
  have hcomponent : connectedComponent twoPairs.spec.ratios prefillRole = [decodeRole, prefillRole] := by
    decide +kernel
  have hdirection : twoPairs.direction [decodeRole, prefillRole] = some .up := by decide +kernel
  rw [hcomponent]
  refine ⟨by decide +kernel, fun d hd => ?_, fun hcomplete => ?_, fun halone => ?_⟩
  · obtain rfl := Option.some.inj (hdirection.symm.trans hd)
    unfold SearchProblem.WithinBudget
    decide +kernel
  · have hmet := (hcomplete ⟨fun _ => 2, fun a ha => ?_, fun r hr hin => ?_⟩).2
    · exact absurd hmet (by decide +kernel)
    · rw [hdirection]
      revert a
      decide +kernel
    · unfold RoleRatio.Met
      revert r
      decide +kernel
  · exact absurd (halone prefillRole (by decide +kernel)).1 (by decide +kernel)

end ConstraintInput

end GpuStack
