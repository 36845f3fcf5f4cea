import GpuStack.Rollout.Writes

/-!
# Rollout/Release — a slot is released by an admission or by a vacancy

A slot holds its role until its replacement is admitted, or until an ordinal the role no longer declares
is empty; and it stops cleaning up when the ordinal is empty (`Lawful`).  The resolver asks the server
for both.  The create path of the same pass advances a slot in cleanup too, and its own question covers
the Workloads of the declared ordinals only.  A slot whose ordinal a scale-down took away while it
cleaned up is therefore sent on to wait while its Workload stands, as soon as the role is short of
another replica (`release_iff`).
-/

namespace GpuStack.Rollout

open List

open Interrupt Retirement

variable {S : Type} {rules : PodRules S} {pass : PassInputs S} {server : ReplacementSlots}
  {role : RoleSpec}

/-! ## What is asked of a pass -/

/-- One of the vacancy tests of the pass showed the ordinal empty. -/
def VacancyShown (rules : PodRules S) (pass : PassInputs S) (role : RoleSpec) (ordinal : ℕ) : Prop :=
  Vacant rules role.name ordinal (pass.reads role.name).slot.pods (pass.reads role.name).slot.workloads
    ∨ Vacant rules role.name ordinal (pass.reads role.name).taken
      (pass.reads role.name).takenWorkloads

/-- **An effect releases a slot only on what the pass has read**: it removes one on `ClearShown`, and
sends one from cleanup to wait for admission on `VacancyShown`. -/
structure Lawful (rules : PodRules S) (pass : PassInputs S) (server : ReplacementSlots)
    (effect : Effect) : Prop where
  released : ∀ name slot, server.slotFor name = some slot →
    (∀ later, (server.perform effect).slotFor name = some later → later.ordinal ≠ slot.ordinal) →
    ∃ role ∈ pass.spec, role.name = name ∧ ClearShown rules pass role slot.ordinal
  advanced : ∀ name slot later, server.slotFor name = some slot → slot.phase = .cleanup →
    (server.perform effect).slotFor name = some later → later.ordinal = slot.ordinal →
    later.phase = .waitingForAdmission →
    ∃ role ∈ pass.spec, role.name = name ∧ VacancyShown rules pass role slot.ordinal

/-- The Pods the create path lists carry, with an ordinal's label, the name of its group. -/
def Labelled (rules : PodRules S) (pass : PassInputs S) : Prop :=
  ∀ role ∈ pass.spec, ∀ pod ∈ (pass.reads role.name).taken, ∀ ordinal, pod.owned = true →
    pod.role = role.name → pod.ordinalLabel = toString ordinal →
    pod.group = rules.replicaGroupName role.name ordinal

/-- A slot in cleanup sits on an ordinal whose group the create path asks the Workloads of; a role that
declares nothing creates nothing. -/
def CleanupsDeclared (rules : PodRules S) (spec : List RoleSpec) (server : ReplacementSlots) : Prop :=
  ∀ role ∈ spec, ∀ slot, server.slotFor role.name = some slot → slot.phase = .cleanup →
    role.replicas = 0 ∨ rules.replicaGroupName role.name slot.ordinal
      ∈ (List.range role.replicas).map (rules.replicaGroupName role.name)

/-! ## The condition suffices -/

theorem vacant_of_groupTaken {ordinal : ℕ} (hlabel : Labelled rules pass) (hrole : role ∈ pass.spec)
    (hasked : rules.replicaGroupName role.name ordinal
      ∈ (List.range role.replicas).map (rules.replicaGroupName role.name))
    (hfree : groupTaken rules role (pass.reads role.name)
      (rules.replicaGroupName role.name ordinal) = false) :
    Vacant rules role.name ordinal (pass.reads role.name).taken
      (pass.reads role.name).takenWorkloads := by
  simp only [groupTaken, decide_eq_false_iff_not, not_or, not_and, Bool.not_eq_true,
    any_eq_false] at hfree
  refine ⟨fun pod hpod howned hname hordinal => hfree.1 ?_, hfree.2 hasked⟩
  simp only [takenGroups, mem_filter, mem_map, decide_eq_true_eq]
  exact ⟨⟨pod, ⟨hpod, howned⟩, hlabel role hrole pod hpod ordinal howned hname hordinal⟩,
    rules.replicaGroupName_ne _ _⟩

/-- What a pass does is lawful where its slots in cleanup are declared. -/
theorem Write.lawful {start : ReplacementSlots} {effect : Effect} (hlabel : Labelled rules pass)
    (hdeclared : CleanupsDeclared rules pass.spec start) (h : Write rules pass start server effect) :
    Lawful rules pass server effect where
  released name slot hslot hgone := by
    obtain ⟨-, hshown⟩ | ⟨later, hlater, hordinal, -⟩ := h.slotFor hslot
    · exact hshown
    · exact absurd hordinal (hgone later hlater)
  advanced name slot later hslot hcleanup hlater _ hphase := by
    obtain ⟨hnone, -⟩ | ⟨later', hlater', -, hshown⟩ := h.slotFor hslot
    · cases hnone.symm.trans hlater
    cases hlater.symm.trans hlater'
    obtain ⟨role, hrole, hname, hvacant | ⟨hfree, hcancelled⟩⟩ := hshown hcleanup hphase
    · exact ⟨role, hrole, hname, .inl hvacant⟩
    · refine ⟨role, hrole, hname, .inr (vacant_of_groupTaken hlabel hrole ?_ hfree)⟩
      by_cases hordinal : slot.ordinal < role.replicas
      · exact mem_map.mpr ⟨_, mem_range.mpr hordinal, rfl⟩
      · obtain ⟨hstart, hpos⟩ := hcancelled (not_lt.mp hordinal)
        exact (hdeclared role hrole slot hstart hcleanup).resolve_left hpos.ne'

/-! ## The condition is needed

Where it fails, take a pass that finds no Pod and, at every read, one Workload on the slot's group. -/

section Stranded

variable {slot : ReplacementSlot} {slots : ReplacementSlots}

/-- A Workload that stands on a group's name. -/
def strandedWorkload (group : String) : Workload S := { uid := "", name := group }

/-- A pass that reads no Pod, and this Workload in every list. -/
def strandedPass (spec : List RoleSpec) (hnodup : (spec.map (·.name)).Nodup) (group : String) :
    PassInputs S where
  spec := spec
  spec_nodup := hnodup
  reads _ := { slot := { workloads := [strandedWorkload group] }
               takenWorkloads := [strandedWorkload group] }

variable {spec : List RoleSpec} {hnodup : (spec.map (·.name)).Nodup}

theorem not_vacant_stranded {pods : List (Member S)} {name : String} {ordinal : ℕ} :
    ¬Vacant rules name ordinal pods [strandedWorkload (rules.replicaGroupName name ordinal)] := by
  rintro ⟨-, hworkloads⟩
  simpa [strandedWorkload, Workload.ownsGroupName] using hworkloads _ mem_cons_self

/-- The cancelled slot stays as it is. -/
theorem resolveRole_stranded (hslot : slots.slotFor role.name = some slot)
    (hcancelled : role.replicas ≤ slot.ordinal) :
    (resolveRole rules (strandedPass spec hnodup (rules.replicaGroupName role.name slot.ordinal))
      slots role).2 = (slots, some slot) := by
  have hname : slot.role = role.name := slots.keyed hslot
  have hblocked : vacancyBlocker rules slot [] [strandedWorkload
      (rules.replicaGroupName role.name slot.ordinal)] ≠ none := fun hnone => by
    rw [← hname] at hnone
    exact not_vacant_stranded (vacancyBlocker_eq_none.mp hnone)
  obtain ⟨reason, hreason⟩ := Option.ne_none_iff_exists'.mp hblocked
  have hself : slots.setSlot slot = slots := ReplacementSlots.setSlot_eq_self (by rw [hname, hslot])
  simp [resolveRole, hslot, resolveReplacementSlot, hcancelled, strandedPass, hreason, hself]

theorem census_nil {hold : RetirementHold} {minRenderVersion : ℕ} :
    census role hold minRenderVersion ([] : List (Member S)) = ⟨[], [], [], 0⟩ := by
  simp [census, surplusCount]

/-- A role that holds a slot and has no Pod creates the slot's ordinal first. -/
theorem convergeRole_empty (hactual : pass.actual = [])
    (hresolved : (resolveRole rules pass slots role).2 = (slots, some slot)) (hpos : role.replicas ≠ 0)
    (hfree : groupTaken rules role (pass.reads role.name)
      (rules.replicaGroupName role.name slot.ordinal) = false) :
    (convergeRole rules pass slots role).slots = slots
      ∧ ∃ rest, (convergeRole rules pass slots role).plan.creates = slot.ordinal :: rest := by
  have hlive : livePods pass role.name = [] := by simp [livePods, hactual]
  have hturn : roleTurnOver pass role true = none := by
    simp [roleTurnOver, hlive, census_nil, outdatedPods]
  simp only [convergeRole, hlive, census_nil]
  generalize resolveRole rules pass slots role = resolved at hresolved ⊢
  obtain ⟨effects, later, holding⟩ := resolved
  obtain ⟨rfl, rfl⟩ := Prod.mk.inj hresolved
  simp [hturn, createOrdinals, hpos, Option.filter, hfree]

variable (spec hnodup) in
/-- …so the cancelled slot is created, whatever stands on its group. -/
theorem convergeRole_stranded (hslot : slots.slotFor role.name = some slot)
    (hpos : role.replicas ≠ 0) (hcancelled : rules.replicaGroupName role.name slot.ordinal
      ∉ (List.range role.replicas).map (rules.replicaGroupName role.name)) :
    (convergeRole rules (strandedPass spec hnodup (rules.replicaGroupName role.name slot.ordinal))
        slots role).slots = slots
      ∧ ∃ rest, (convergeRole rules (strandedPass spec hnodup
        (rules.replicaGroupName role.name slot.ordinal)) slots role).plan.creates
          = slot.ordinal :: rest := by
  have hordinal : role.replicas ≤ slot.ordinal := by
    by_contra hlt
    exact hcancelled (mem_map.mpr ⟨_, mem_range.mpr (not_le.mp hlt), rfl⟩)
  refine convergeRole_empty rfl (resolveRole_stranded hslot hordinal) hpos ?_
  simp only [groupTaken, decide_eq_false_iff_not]
  rintro (htaken | ⟨hasked, -⟩)
  · exact nomatch htaken
  · exact hcancelled hasked

/-- After all roles the slot is as it was, and heads what its role creates. -/
theorem convergeRoles_stranded {roles : List RoleSpec} {group : String} (hmem : role ∈ roles)
    (hroles : ∀ next ∈ roles, next ∈ spec) (hdistinct : (roles.map (·.name)).Nodup)
    (hstart : ∀ next ∈ roles, slots.slotFor next.name = server.slotFor next.name)
    (hslot : server.slotFor role.name = some slot) (hpos : role.replicas ≠ 0)
    (hgroup : group = rules.replicaGroupName role.name slot.ordinal)
    (hcancelled : group ∉ (List.range role.replicas).map (rules.replicaGroupName role.name)) :
    (convergeRoles rules (strandedPass spec hnodup group) slots roles).2.1.slotFor role.name = some slot
      ∧ ∃ rest, ((convergeRoles rules (strandedPass spec hnodup group) slots roles).2.2
        role.name).creates = slot.ordinal :: rest := by
  induction roles generalizing slots with
  | nil => cases hmem
  | cons next roles ih =>
    obtain ⟨hnext, hroles⟩ := forall_mem_cons.mp hroles
    obtain ⟨hfresh, hdistinct⟩ := nodup_cons.mp hdistinct
    obtain ⟨hhere, hstart⟩ := forall_mem_cons.mp hstart
    have hne : ∀ later ∈ roles, later.name ≠ next.name := fun later hlater heq =>
      hfresh (mem_map.mpr ⟨later, hlater, heq⟩)
    obtain ⟨-, hother, -⟩ := convergeRole_carries rules (strandedPass spec hnodup group) hnext hhere
    have hlater : ∀ later ∈ roles, (convergeRole rules (strandedPass spec hnodup group) slots
        next).slots.slotFor later.name = server.slotFor later.name := fun later hlater =>
      (hother _ (hne later hlater)).trans (hstart later hlater)
    obtain ⟨-, hothers, -⟩ := convergeRoles_carries rules (strandedPass spec hnodup group) hroles
      hdistinct hlater
    simp only [convergeRoles]
    rcases mem_cons.mp hmem with rfl | hmem
    · subst hgroup
      obtain ⟨hsame, rest, hrest⟩ :=
        convergeRole_stranded spec hnodup (hhere.trans hslot) hpos hcancelled
      rw [hothers _ hfresh, hsame, if_pos rfl]
      exact ⟨hhere.trans hslot, rest, hrest⟩
    · rw [if_neg (hne role hmem)]
      exact ih hmem hroles hdistinct hlater

/-- The creates then send the slot on, on no vacancy. -/
theorem not_lawful_createRoles {start : ReplacementSlots} {plans : String → RolePlan}
    {roles : List RoleSpec} {group : String} {rest : List ℕ} (hmem : role ∈ roles)
    (hroles : ∀ next ∈ roles, next ∈ spec) (hdistinct : (roles.map (·.name)).Nodup)
    (hready : ∀ next ∈ roles, ∀ ordinal ∈ (plans next.name).creates,
      Ready rules (strandedPass spec hnodup group) start next slots ordinal)
    (hslot : slots.slotFor role.name = some slot) (hcleanup : slot.phase = .cleanup)
    (hgroup : group = rules.replicaGroupName role.name slot.ordinal)
    (hcreates : (plans role.name).creates = slot.ordinal :: rest) :
    ¬Along ReplacementSlots.perform (Lawful rules (strandedPass spec hnodup group)) slots
      (createRoles plans slots roles).1 := by
  induction roles generalizing slots with
  | nil => cases hmem
  | cons next roles ih =>
    obtain ⟨hnext, hroles⟩ := forall_mem_cons.mp hroles
    obtain ⟨hfresh, hdistinct⟩ := nodup_cons.mp hdistinct
    obtain ⟨hhere, hready⟩ := forall_mem_cons.mp hready
    simp only [createRoles, append_assoc, along_append]
    rintro ⟨hwhole, -, hrest⟩
    rcases mem_cons.mp hmem with rfl | hmem
    · -- the first effect of this role is the advance
      rw [hcreates] at hwhole
      simp only [createReplicas, hslot, Option.any_some, hcleanup, decide_true, and_self,
        if_true] at hwhole
      obtain ⟨other, -, hname, hshown⟩ := hwhole.1.advanced role.name slot _ hslot hcleanup
        ReplacementSlots.setSlot_slotFor rfl rfl
      rw [VacancyShown, hname, hgroup] at hshown
      exact hshown.elim not_vacant_stranded not_vacant_stranded
    · have hne : ∀ later ∈ roles, later.name ≠ next.name := fun later hlater heq =>
        hfresh (mem_map.mpr ⟨later, hlater, heq⟩)
      obtain ⟨hcarries, hothers⟩ := createReplicas_carries hnext hhere
      rw [hcarries.after, foldl_of_keep] at hrest
      · refine ih hmem hroles hdistinct (fun later hlater ordinal hordinal => ?_)
          ((hothers _ (hne role hmem)).trans hslot) hrest
        exact (hready later hlater ordinal hordinal).congr (hothers _ (hne later hlater))
      · intro effect heffect
        obtain ⟨member, -, rfl⟩ := mem_map.mp heffect
        rfl

variable (spec hnodup) in
/-- **A cancelled slot in cleanup is sent on beside its Workload.** -/
theorem not_lawful_stranded (hrole : role ∈ spec) (hslot : server.slotFor role.name = some slot)
    (hcleanup : slot.phase = .cleanup) (hpos : role.replicas ≠ 0)
    (hcancelled : rules.replicaGroupName role.name slot.ordinal
      ∉ (List.range role.replicas).map (rules.replicaGroupName role.name)) :
    ¬Along ReplacementSlots.perform
      (Lawful rules (strandedPass spec hnodup (rules.replicaGroupName role.name slot.ordinal))) server
      (passEffects rules (strandedPass spec hnodup (rules.replicaGroupName role.name slot.ordinal))
        server) := by
  generalize hgroup : rules.replicaGroupName role.name slot.ordinal = group at hcancelled ⊢
  obtain ⟨hroles, -, hready⟩ := convergeRoles_carries rules (strandedPass spec hnodup group)
    (fun _ h => h) hnodup fun role _ => Eq.refl (server.slotFor role.name)
  obtain ⟨hstored, rest, hrest⟩ := convergeRoles_stranded hrole (fun _ h => h) hnodup
    (fun role _ => Eq.refl (server.slotFor role.name)) hslot hpos hgroup.symm hcancelled
  have hblocked : (strandedPass spec hnodup group : PassInputs S).weightsBlocked = false := rfl
  have hperm := createRoleOrder_perm spec
  simp only [passEffects, hblocked, Bool.false_eq_true, if_false, along_append]
  rintro ⟨⟨-, hcreated⟩, -⟩
  rw [((Carries.departures _).append hroles).after] at hcreated
  exact not_lawful_createRoles (hperm.mem_iff.mpr hrole) (fun _ h => hperm.mem_iff.mp h)
    ((hperm.map _).nodup_iff.mpr hnodup) (fun next hnext => hready next (hperm.mem_iff.mp hnext))
    hstored hcleanup hgroup.symm hrest hcreated

end Stranded

/-! ## Runs -/

/-- The record after a pass that is cut after some of its effects. -/
def runPass (rules : PodRules S) (server : ReplacementSlots) (step : PassInputs S × ℕ) :
    ReplacementSlots :=
  ((passEffects rules step.1 server).take step.2).foldl ReplacementSlots.perform server

/-- **A slot is released only on an admission or a vacancy, exactly where no slot that cleans up is
cancelled.**  For a spec and a record, every pass is lawful, wherever it is cut and whatever it reads of
Pods labelled as the operator labels them, iff the slots in cleanup are declared; so runs whose passes
all start from such records are lawful. -/
theorem release_iff (rules : PodRules S) :
    (∀ (spec : List RoleSpec) (server : ReplacementSlots), (spec.map (·.name)).Nodup →
      ((∀ pass : PassInputs S, pass.spec = spec → Labelled rules pass →
          Along ReplacementSlots.perform (Lawful rules pass) server (passEffects rules pass server))
        ↔ CleanupsDeclared rules spec server)) ∧
    ∀ (server : ReplacementSlots) (steps : List (PassInputs S × ℕ)),
      Along (runPass rules) (fun server step => Labelled rules step.1
        ∧ CleanupsDeclared rules step.1.spec server) server steps →
      Along (runPass rules) (fun server step => Along ReplacementSlots.perform (Lawful rules step.1)
        server ((passEffects rules step.1 server).take step.2)) server steps := by
  have hsuffices : ∀ (pass : PassInputs S) (server : ReplacementSlots), Labelled rules pass →
      CleanupsDeclared rules pass.spec server →
      Along ReplacementSlots.perform (Lawful rules pass) server (passEffects rules pass server) :=
    fun pass server hlabel hdeclared => (pass_writes rules pass server).mono fun _ _ _ hwrite =>
      hwrite.lawful hlabel hdeclared
  refine ⟨fun spec server hnodup => ⟨fun hlawful role hrole slot hslot hcleanup => ?_, ?_⟩, ?_⟩
  · by_contra hbad
    obtain ⟨hpos, hcancelled⟩ := not_or.mp hbad
    exact not_lawful_stranded spec hnodup hrole hslot hcleanup hpos hcancelled
      (hlawful _ rfl fun _ _ _ h => nomatch h)
  · rintro hdeclared pass rfl hlabel
    exact hsuffices pass server hlabel hdeclared
  · intro server steps hsteps
    exact hsteps.mono fun server step _ ⟨hlabel, hdeclared⟩ =>
      (hsuffices step.1 server hlabel hdeclared).take step.2

/-! ## A scale-down during a replacement -/

/-- After a scale-down to one replica, whose own Pod is gone: the Workload of the replica that was being
replaced is on its way out, and stands in every list. -/
def scaledDown : PassInputs Unit where
  spec := [Decode.edited 1]
  spec_nodup := Decode.nodup_edited 1
  reads _ :=
    let leaving := [{ Decode.workload .yes 1 with terminating := true }]
    { slot := { cleaned := leaving, workloads := leaving }, takenWorkloads := leaving }

open Decode in
/-- The slot that an ordinary turn-over began is sent on to wait by the pass after the scale-down, though
every list of Workloads of that pass shows the one on the slot's group. -/
theorem cancelled_slot_waits :
    (runPass groupRules .empty (outdatedPair, 3)).slotFor "decode" = some pairSlot
      ∧ passEffects groupRules scaledDown (runPass groupRules .empty (outdatedPair, 3))
        = [.deleteWorkload pairSlot "workload1", .advanceSlot (waitingSlot "decode" 1 [])]
      ∧ ¬Along ReplacementSlots.perform (Lawful groupRules scaledDown)
        (runPass groupRules .empty (outdatedPair, 3))
        (passEffects groupRules scaledDown (runPass groupRules .empty (outdatedPair, 3))) := by
  have hslot : (runPass groupRules .empty (outdatedPair, 3)).slotFor "decode" = some pairSlot := by
    decide +kernel
  have heffects : passEffects groupRules scaledDown (runPass groupRules .empty (outdatedPair, 3))
      = [.deleteWorkload pairSlot "workload1", .advanceSlot (waitingSlot "decode" 1 [])] := by
    decide +kernel
  refine ⟨hslot, heffects, ?_⟩
  rw [heffects]
  rintro ⟨-, hadvance, -⟩
  obtain ⟨role, -, hname, hshown⟩ := hadvance.advanced "decode" _ _ hslot rfl
    ReplacementSlots.setSlot_slotFor rfl rfl
  rw [VacancyShown, hname] at hshown
  have hstands : Workload.ownsGroupName { workload .yes 1 with terminating := true }
      (groupRules.replicaGroupName "decode" 1) = true := by decide +kernel
  have hgone : Workload.ownsGroupName { workload .yes 1 with terminating := true }
      (groupRules.replicaGroupName "decode" 1) = false :=
    hshown.elim (fun h => h.2 _ mem_cons_self) fun h => h.2 _ mem_cons_self
  exact Bool.noConfusion (hstands.symm.trans hgone)

end GpuStack.Rollout
