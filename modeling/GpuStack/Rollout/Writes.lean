import GpuStack.Lib.Interrupt
import GpuStack.Rollout.Pass

/-!
# Rollout/Writes — what a pass finds where it writes

A pass that starts from the record on the server carries that record along: each of its writes meets
the slot the pass believes to be there.  `Write` lists what the effects of such a pass can be, each with
the slot it finds and with what the pass has read by then; `pass_writes` is the theorem, and every
invariant of the record is a case analysis of it.
-/

namespace GpuStack.Rollout

open List

open Interrupt Retirement

variable {S : Type} {rules : PodRules S} {pass : PassInputs S} {start server slots : ReplacementSlots}
  {role : RoleSpec}

/-- The reads of the pass show that the role's slot at this ordinal may be cleared. -/
def ClearShown (rules : PodRules S) (pass : PassInputs S) (role : RoleSpec) (ordinal : ℕ) : Prop :=
  role.replicas ≤ ordinal ∧ Vacant rules role.name ordinal (pass.reads role.name).slot.pods
      (pass.reads role.name).slot.workloads
    ∨ Admitted rules role.name ordinal (role.want ordinal) pass.minRenderVersion
      (pass.reads role.name).slot.pods (pass.reads role.name).slot.workloads

/-- **What an effect of a pass finds on the server**, for a pass that started from the record
`start`. -/
inductive Write (rules : PodRules S) (pass : PassInputs S) (start server : ReplacementSlots) :
    Effect → Prop
  | plain {effect : Effect} (hwrites : effect.writes = none)
      (hmember : ∀ slot uid, effect ≠ .deleteMember slot uid) : Write rules pass start server effect
  | member {slot : ReplacementSlot} {uid : String} (hstored : server.slotFor slot.role = some slot)
      (hcaptured : uid ∈ slot.memberUIDs) : Write rules pass start server (.deleteMember slot uid)
  | opened {slot : ReplacementSlot} (hfree : server.slotFor slot.role = none) :
      Write rules pass start server (.beginSlot slot)
  | cleared {role : RoleSpec} {slot : ReplacementSlot} (hrole : role ∈ pass.spec)
      (hstored : server.slotFor role.name = some slot)
      (hshown : ClearShown rules pass role slot.ordinal) :
      Write rules pass start server (.endSlot role.name)
  | waited {slot later : ReplacementSlot} (hstored : server.slotFor later.role = some slot)
      (hordinal : later.ordinal = slot.ordinal) (hphase : slot.phase = .waitingForAdmission) :
      Write rules pass start server (.advanceSlot later)
  | vacated {role : RoleSpec} {slot later : ReplacementSlot} (hrole : role ∈ pass.spec)
      (hname : later.role = role.name) (hstored : server.slotFor role.name = some slot)
      (hordinal : later.ordinal = slot.ordinal)
      (hvacant : Vacant rules role.name slot.ordinal (pass.reads role.name).slot.pods
        (pass.reads role.name).slot.workloads) :
      Write rules pass start server (.advanceSlot later)
  | created {role : RoleSpec} {slot later : ReplacementSlot} (hrole : role ∈ pass.spec)
      (hname : later.role = role.name) (hstored : server.slotFor role.name = some slot)
      (hordinal : later.ordinal = slot.ordinal)
      (hfree : groupTaken rules role (pass.reads role.name)
        (rules.replicaGroupName role.name slot.ordinal) = false)
      (hcancelled : role.replicas ≤ slot.ordinal →
        start.slotFor role.name = some slot ∧ slot.phase = .cleanup ∧ 0 < role.replicas) :
      Write rules pass start server (.advanceSlot later)

/-- **What a write leaves of a stored slot**: it is cleared on what the pass has read, or it stays on its
ordinal, and goes from cleanup to wait for admission once one of the pass's vacancy tests was passed. -/
theorem Write.slotFor {effect : Effect} {name : String} {slot : ReplacementSlot}
    (h : Write rules pass start server effect) (hslot : server.slotFor name = some slot) :
    ((server.perform effect).slotFor name = none
      ∧ ∃ role ∈ pass.spec, role.name = name ∧ ClearShown rules pass role slot.ordinal) ∨
    ∃ later, (server.perform effect).slotFor name = some later ∧ later.ordinal = slot.ordinal
      ∧ (slot.phase = .cleanup → later.phase = .waitingForAdmission →
        ∃ role ∈ pass.spec, role.name = name
          ∧ (Vacant rules role.name slot.ordinal (pass.reads role.name).slot.pods
              (pass.reads role.name).slot.workloads
            ∨ groupTaken rules role (pass.reads role.name)
                (rules.replicaGroupName role.name slot.ordinal) = false
              ∧ (role.replicas ≤ slot.ordinal →
                start.slotFor role.name = some slot ∧ 0 < role.replicas))) := by
  by_cases hname : effect.writes = some name
  · cases h with
    | plain hwrites => cases hwrites.symm.trans hname
    | member => cases hname
    | opened hfree =>
      cases hname
      cases hfree.symm.trans hslot
    | cleared hrole hstored hshown =>
      cases hname
      cases hstored.symm.trans hslot
      exact .inl ⟨ReplacementSlots.clearRole_slotFor, _, hrole, rfl, hshown⟩
    | waited hstored hordinal hphase =>
      cases hname
      cases hstored.symm.trans hslot
      refine .inr ⟨_, ReplacementSlots.setSlot_slotFor, hordinal, fun hcleanup => ?_⟩
      cases hphase.symm.trans hcleanup
    | vacated hrole hrolename hstored hordinal hvacant =>
      cases hname
      cases hstored.symm.trans (hrolename ▸ hslot)
      exact .inr ⟨_, ReplacementSlots.setSlot_slotFor, hordinal,
        fun _ _ => ⟨_, hrole, hrolename.symm, .inl hvacant⟩⟩
    | created hrole hrolename hstored hordinal hfree hcancelled =>
      cases hname
      cases hstored.symm.trans (hrolename ▸ hslot)
      exact .inr ⟨_, ReplacementSlots.setSlot_slotFor, hordinal, fun _ _ => ⟨_, hrole, hrolename.symm,
        .inr ⟨hfree, fun hle => (hcancelled hle).imp_right And.right⟩⟩⟩
  · refine .inr ⟨slot, (ReplacementSlots.perform_slotFor_ne hname).trans hslot, rfl, ?_⟩
    intro hcleanup hphase
    cases hcleanup.symm.trans hphase

/-- Effects that carry a program from one record to another, each finding what `Write` says. -/
structure Carries (rules : PodRules S) (pass : PassInputs S) (start before : ReplacementSlots)
    (effects : List Effect) (after : ReplacementSlots) : Prop where
  along : Along ReplacementSlots.perform (Write rules pass start) before effects
  after : effects.foldl ReplacementSlots.perform before = after

namespace Carries

variable {before mid after : ReplacementSlots} {effects more : List Effect}

theorem nil : Carries rules pass start before [] before := ⟨trivial, rfl⟩

theorem append (h : Carries rules pass start before effects mid)
    (h' : Carries rules pass start mid more after) :
    Carries rules pass start before (effects ++ more) after := by
  refine ⟨along_append.mpr ⟨h.along, ?_⟩, ?_⟩
  · rw [h.after]
    exact h'.along
  · rw [foldl_append, h.after, h'.after]

theorem single {effect : Effect} (h : Write rules pass start before effect)
    (hafter : before.perform effect = after) : Carries rules pass start before [effect] after :=
  ⟨⟨h, trivial⟩, hafter⟩

theorem plain (hwrites : ∀ effect ∈ effects, effect.writes = none)
    (hwrite : ∀ effect ∈ effects, Write rules pass start before effect) :
    Carries rules pass start before effects before :=
  have hkeep : ∀ effect ∈ effects, before.perform effect = before := fun effect heffect =>
    ReplacementSlots.perform_of_writes_eq_none (hwrites effect heffect)
  ⟨along_of_keep hkeep hwrite, foldl_of_keep hkeep⟩

/-- A cleanup on behalf of the slot that is stored. -/
theorem clean {slot : ReplacementSlot} {members : List (Member S)} {listed : List (Workload S)}
    (hstored : before.slotFor slot.role = some slot) :
    Carries rules pass start before (cleanReplacementSlot slot members listed) before := by
  refine plain (fun effect heffect => ?_) (fun effect heffect => ?_) <;>
    obtain ⟨uid, huid, rfl⟩ | ⟨uid, rfl⟩ := mem_cleanReplacementSlot heffect
  · rfl
  · rfl
  · exact .member hstored huid
  · exact .plain rfl fun _ _ h => by cases h

theorem departures (pods : List (Member S)) :
    Carries rules pass start before (departureEffects pods) before := by
  rw [departureEffects]
  split
  · exact nil
  · have hplain : ∀ effect ∈ (pods.map fun pod => Effect.deletePod pod.uid)
        ++ [.deleteGroupWorkloads (pods.map (·.uid))],
        effect.writes = none ∧ ∀ slot uid, effect ≠ .deleteMember slot uid := by
      intro effect heffect
      rcases mem_append.mp heffect with heffect | heffect
      · obtain ⟨pod, -, rfl⟩ := mem_map.mp heffect
        exact ⟨rfl, fun _ _ h => by cases h⟩
      · obtain rfl := mem_singleton.mp heffect
        exact ⟨rfl, fun _ _ h => by cases h⟩
    exact plain (fun effect heffect => (hplain effect heffect).1) fun effect heffect =>
      .plain (hplain effect heffect).1 (hplain effect heffect).2

theorem creates {name : String} {ordinal : ℕ} {members : List Rendered} :
    Carries rules pass start before (members.map (.create name ordinal)) before := by
  refine plain (fun effect heffect => ?_) (fun effect heffect => ?_) <;>
    obtain ⟨member, -, rfl⟩ := mem_map.mp heffect
  · rfl
  · exact .plain rfl fun _ _ h => by cases h

end Carries

/-! ## One role -/

/-- One step of the stored slot carries the record to the slot it ends with. -/
theorem Resolves.carries {slot : ReplacementSlot} {resolved : ReplacementProgress}
    (hrole : role ∈ pass.spec) (hstored : slots.slotFor role.name = some slot)
    (h : Resolves rules pass.minRenderVersion role.replicas (role.want slot.ordinal)
      (pass.reads role.name).slot slot resolved) :
    Carries rules pass start slots resolved.effects (slots.setSlot resolved.slot)
      ∧ (resolved.slot.role = slot.role ∧ resolved.slot.ordinal = slot.ordinal)
      ∧ (resolved.cleared = true → ClearShown rules pass role slot.ordinal)
      ∧ (role.replicas ≤ slot.ordinal → resolved.slot.phase = .cleanup → resolved.slot = slot) := by
  have hname : slot.role = role.name := slots.keyed hstored
  have hstored' : slots.slotFor slot.role = some slot := by rw [hname, hstored]
  cases h with
  | held =>
    refine ⟨?_, ⟨rfl, rfl⟩, fun h => Bool.noConfusion h, fun _ _ => rfl⟩
    rw [ReplacementSlots.setSlot_eq_self hstored']
    exact .clean hstored'
  | cancelled hordinal hvacant =>
    refine ⟨?_, ⟨rfl, rfl⟩, fun _ => .inl ⟨hordinal, hname ▸ hvacant⟩, fun _ _ => rfl⟩
    rw [ReplacementSlots.setSlot_eq_self hstored']
    exact .clean hstored'
  | vacated hphase hordinal hvacant =>
    refine ⟨?_, ⟨rfl, rfl⟩, fun h => Bool.noConfusion h, fun hcancelled => by omega⟩
    exact (Carries.clean hstored').append
      (.single (.vacated hrole hname hstored rfl (hname ▸ hvacant)) rfl)
  | admitted hphase hadmitted =>
    refine ⟨?_, ⟨rfl, rfl⟩, fun _ => .inr (hname ▸ hadmitted), fun _ _ => rfl⟩
    rw [ReplacementSlots.setSlot_eq_self hstored']
    exact .clean hstored'
  | @reopened standing _ wl _ hphase hordinal =>
    refine ⟨?_, ⟨rfl, rfl⟩, fun h => Bool.noConfusion h, fun hcancelled => by omega⟩
    have hreopen : Carries rules pass start slots [.advanceSlot (reopenedSlot slot standing wl)]
        (slots.setSlot (reopenedSlot slot standing wl)) :=
      .single (.waited hstored' rfl hphase) rfl
    exact hreopen.append (.clean ReplacementSlots.setSlot_slotFor)
  | @waiting seen later _ _ hphase hseen hlater hcleared =>
    obtain ⟨hseenRole, hseenOrdinal, hseenPhase⟩ := hseen
    have hobserve : Carries rules pass start slots [.advanceSlot seen] (slots.setSlot seen) :=
      .single (.waited (by rw [hseenRole, hstored']) hseenOrdinal hphase) rfl
    obtain ⟨rfl, rfl⟩ | ⟨rfl, rfl⟩ := hlater
    · refine ⟨hobserve, ⟨hseenRole, hseenOrdinal⟩, fun h => .inr (hname ▸ (hcleared h).2), ?_⟩
      intro _ hcleanup
      rw [hseenPhase, hphase] at hcleanup
      cases hcleanup
    · refine ⟨?_, ⟨rfl, rfl⟩, fun h => .inr (hname ▸ (hcleared h).2), fun _ hcleanup => by cases hcleanup⟩
      refine hobserve.append (.single (.waited ?_ hseenOrdinal.symm (hseenPhase.trans hphase)) ?_)
      · exact (congrArg (slots.setSlot seen).slotFor hseenRole.symm).trans ReplacementSlots.setSlot_slotFor
      · exact ReplacementSlots.setSlot_setSlot hseenRole.symm

variable (rules pass) in
/-- The step of the role's slot.  The slot it leaves is on the server, no other role's has moved, and
one left in cleanup at an ordinal the role does not declare is the one the pass started from. -/
theorem resolveRole_carries (hrole : role ∈ pass.spec)
    (hstart : slots.slotFor role.name = start.slotFor role.name) :
    Carries rules pass start slots (resolveRole rules pass slots role).1
        (resolveRole rules pass slots role).2.1
      ∧ (∀ name ≠ role.name, (resolveRole rules pass slots role).2.1.slotFor name = slots.slotFor name)
      ∧ (resolveRole rules pass slots role).2.1.slotFor role.name
        = (resolveRole rules pass slots role).2.2
      ∧ ∀ slot, (resolveRole rules pass slots role).2.2 = some slot →
        role.replicas ≤ slot.ordinal → slot.phase = .cleanup → start.slotFor role.name = some slot := by
  simp only [resolveRole]
  split
  · next hnone => exact ⟨.nil, fun _ _ => rfl, hnone, fun _ h => by cases h⟩
  next slot hslot =>
  have hname : slot.role = role.name := slots.keyed hslot
  obtain ⟨hcarries, ⟨hsame, hordinal⟩, hshown, hcancelled⟩ :=
    (resolves rules pass.minRenderVersion role.replicas (role.want slot.ordinal)
      (pass.reads role.name).slot slot).carries hrole hslot
  generalize resolveReplacementSlot rules pass.minRenderVersion role.replicas
    (role.want slot.ordinal) (pass.reads role.name).slot slot = resolved at *
  have hresolved : (slots.setSlot resolved.slot).slotFor role.name = some resolved.slot := by
    rw [← hname, ← hsame, ReplacementSlots.setSlot_slotFor]
  split
  · next hcleared =>
    have hended : Carries rules pass start (slots.setSlot resolved.slot) [.endSlot role.name]
        (slots.clearRole role.name) :=
      .single (.cleared hrole hresolved (hordinal ▸ hshown hcleared))
        (ReplacementSlots.clearRole_setSlot (hsame.trans hname))
    exact ⟨hcarries.append hended, fun _ hne => ReplacementSlots.clearRole_slotFor_ne hne,
      ReplacementSlots.clearRole_slotFor, fun _ h => by cases h⟩
  · refine ⟨hcarries, fun _ hne => ReplacementSlots.setSlot_slotFor_ne ?_, hresolved, ?_⟩
    · rwa [hsame, hname]
    · intro left hleft hundeclared hcleanup
      cases hleft
      rw [← hstart, hslot, hcancelled (hordinal ▸ hundeclared) hcleanup]

/-- A role that holds a slot turns over no replica that sits on an ordinal. -/
theorem roleTurnOver_holding {pod : Member S} {departing : List (Member S)}
    (h : roleTurnOver pass role true = some (pod, departing)) : pod.ordinal = none := by
  simp only [roleTurnOver] at h
  split at h
  · cases h
  obtain ⟨pick, hpick, hturn⟩ := Option.bind_eq_some_iff.mp h
  obtain ⟨picked, hpicked, heq⟩ := Option.map_eq_some_iff.mp hturn
  obtain ⟨rfl, -⟩ := Prod.mk.inj heq
  simp only [turnOverPick, Bool.not_true, Bool.false_eq_true, and_false, if_false, if_true] at hpick
  split at hpick
  · cases hpick
    exact Option.isNone_iff_eq_none.mp (mem_filter.mp (mem_of_highestOrdinalReplica hpicked)).2
  · cases hpick

/-- A turn-over on a role without a slot. -/
theorem turnOverEffects_carries {pod : Member S} {departing : List (Member S)}
    (hfree : pod.ordinal ≠ none → slots.slotFor role.name = none) :
    Carries rules pass start slots (turnOverEffects role.name pass slots pod departing).1
        (turnOverEffects role.name pass slots pod departing).2
      ∧ (∀ name ≠ role.name,
        (turnOverEffects role.name pass slots pod departing).2.slotFor name = slots.slotFor name)
      ∧ (pod.ordinal = none → (turnOverEffects role.name pass slots pod departing).2 = slots) := by
  cases hordinal : pod.ordinal with
  | none =>
    simp only [turnOverEffects, hordinal]
    refine ⟨.plain ?_ ?_, fun _ _ => trivial, fun _ => trivial⟩ <;> simp only [forall_mem_cons]
    · exact ⟨rfl, rfl, fun _ h => nomatch h⟩
    · exact ⟨.plain rfl fun _ _ h => Effect.noConfusion h, .plain rfl fun _ _ h => Effect.noConfusion h,
        fun _ h => nomatch h⟩
  | some ordinal =>
    have hnone := hfree (by simp [hordinal])
    simp only [turnOverEffects, hordinal, hnone, Option.filter_none]
    generalize hslot : replacementCapturedIdentities role.name ordinal departing pass.workloads = slot
    have hname : slot.role = role.name := by rw [← hslot]; rfl
    have hbegun : slots.perform (.beginSlot slot) = slots.setSlot slot := by
      simp [ReplacementSlots.perform, hname, hnone]
    have hopened : Carries rules pass start slots [.beginSlot slot] (slots.setSlot slot) :=
      .single (.opened (by rw [hname, hnone])) hbegun
    refine ⟨hopened.append (.clean ReplacementSlots.setSlot_slotFor), fun _ hne => ?_, fun h => by cases h⟩
    exact ReplacementSlots.setSlot_slotFor_ne (hname ▸ hne)

/-- The group of an ordinal that is created is free on the server, as far as it was asked. -/
theorem mem_createOrdinals {reads : RoleReads S} {counted : Census S}
    {holding : Option ReplacementSlot} {ordinal : ℕ}
    (h : ordinal ∈ createOrdinals rules role reads counted holding) :
    groupTaken rules role reads (rules.replicaGroupName role.name ordinal) = false
      ∧ 0 < role.replicas
      ∧ (ordinal < role.replicas ∨ ∃ slot, holding = some slot ∧ slot.ordinal = ordinal) := by
  simp only [createOrdinals] at h
  split at h
  · cases h
  next hmissing =>
  have hpos : 0 < role.replicas := by omega
  rcases mem_append.mp h with hfirst | hrest
  · obtain ⟨hheld, hfree⟩ := Option.filter_eq_some_iff.mp (Option.mem_toList.mp hfirst)
    obtain ⟨slot, hslot, hordinal⟩ := Option.map_eq_some_iff.mp hheld
    simp only [decide_eq_true_eq, Bool.not_eq_true'] at hfree
    exact ⟨hfree.2, hpos, .inr ⟨slot, hslot, hordinal⟩⟩
  · obtain ⟨hrange, hfree⟩ := mem_filter.mp (mem_of_mem_take hrest)
    simp only [decide_eq_true_eq, Bool.not_eq_true'] at hfree
    exact ⟨hfree.2.2.2, hpos, .inl (mem_range.mp hrange)⟩

/-- An ordinal the pass may create: its group is free as far as it was asked, and a slot in cleanup
there that the role does not declare is the one the pass started from. -/
def Ready (rules : PodRules S) (pass : PassInputs S) (start : ReplacementSlots) (role : RoleSpec)
    (slots : ReplacementSlots) (ordinal : ℕ) : Prop :=
  groupTaken rules role (pass.reads role.name) (rules.replicaGroupName role.name ordinal) = false
    ∧ ∀ slot, slots.slotFor role.name = some slot → slot.ordinal = ordinal → slot.phase = .cleanup →
      role.replicas ≤ ordinal → start.slotFor role.name = some slot ∧ 0 < role.replicas

theorem Ready.congr {slots' : ReplacementSlots} {ordinal : ℕ} (h : Ready rules pass start role slots ordinal)
    (hsame : slots'.slotFor role.name = slots.slotFor role.name) :
    Ready rules pass start role slots' ordinal := by
  rwa [Ready, hsame]

variable (rules pass) in
/-- **One role of a pass.** -/
theorem convergeRole_carries (hrole : role ∈ pass.spec)
    (hstart : slots.slotFor role.name = start.slotFor role.name) :
    Carries rules pass start slots (convergeRole rules pass slots role).effects
        (convergeRole rules pass slots role).slots
      ∧ (∀ name ≠ role.name,
        (convergeRole rules pass slots role).slots.slotFor name = slots.slotFor name)
      ∧ ∀ ordinal ∈ (convergeRole rules pass slots role).plan.creates,
        Ready rules pass start role (convergeRole rules pass slots role).slots ordinal := by
  obtain ⟨hcarries, hother, hholding, hcancelled⟩ := resolveRole_carries rules pass hrole hstart
  simp only [convergeRole]
  generalize resolveRole rules pass slots role = resolved at *
  obtain ⟨effects, later, holding⟩ := resolved
  simp only at hcarries hother hholding hcancelled ⊢
  have hready : ∀ final : ReplacementSlots, (holding.isSome = true → final = later) →
      ∀ ordinal ∈ createOrdinals rules role (pass.reads role.name)
        (census role (pass.reads role.name).retirement pass.minRenderVersion (livePods pass role.name))
        holding, Ready rules pass start role final ordinal := by
    intro final hfinal ordinal hordinal
    obtain ⟨hfree, hpos, hfrom⟩ := mem_createOrdinals hordinal
    refine ⟨hfree, fun slot hslot heq hcleanup hundeclared => ⟨?_, hpos⟩⟩
    -- an ordinal past the declared ones can only be the slot's own
    obtain hdeclared | ⟨held, rfl, hheld⟩ := hfrom
    · omega
    · rw [hfinal rfl, hholding] at hslot
      cases hslot
      exact hcancelled slot rfl (heq ▸ hundeclared) hcleanup
  cases hturn : roleTurnOver pass role holding.isSome with
  | none =>
    refine ⟨?_, hother, hready later fun _ => rfl⟩
    simpa using hcarries.append (.departures _)
  | some turned =>
    obtain ⟨pod, departing⟩ := turned
    have hunseated : holding.isSome = true → pod.ordinal = none := fun hheld =>
      roleTurnOver_holding (hheld ▸ hturn)
    have hfree : pod.ordinal ≠ none → later.slotFor role.name = none := fun hseated => by
      rw [hholding]
      exact Option.not_isSome_iff_eq_none.mp fun hheld => hseated (hunseated hheld)
    have hturns : Carries rules pass start later
        (turnOverEffects role.name pass later pod departing).1 _ ∧ _ := turnOverEffects_carries hfree
    obtain ⟨hturned, hothers, hkept⟩ := hturns
    refine ⟨(hcarries.append (.departures _)).append hturned, fun name hne => ?_, ?_⟩
    · exact (hothers name hne).trans (hother name hne)
    · exact hready _ fun hheld => hkept (hunseated hheld)

/-! ## The pass -/

variable (rules pass) in
/-- All roles in turn. -/
theorem convergeRoles_carries {roles : List RoleSpec} (hroles : ∀ role ∈ roles, role ∈ pass.spec)
    (hnodup : (roles.map (·.name)).Nodup)
    (hstart : ∀ role ∈ roles, slots.slotFor role.name = start.slotFor role.name) :
    Carries rules pass start slots (convergeRoles rules pass slots roles).1
        (convergeRoles rules pass slots roles).2.1
      ∧ (∀ name ∉ roles.map (·.name),
        (convergeRoles rules pass slots roles).2.1.slotFor name = slots.slotFor name)
      ∧ ∀ role ∈ roles, ∀ ordinal ∈ ((convergeRoles rules pass slots roles).2.2 role.name).creates,
        Ready rules pass start role (convergeRoles rules pass slots roles).2.1 ordinal := by
  induction roles generalizing slots with
  | nil => exact ⟨.nil, fun _ _ => rfl, fun _ h => nomatch h⟩
  | cons role roles ih =>
    obtain ⟨hrole, hroles⟩ := forall_mem_cons.mp hroles
    obtain ⟨hfresh, hnodup⟩ := nodup_cons.mp hnodup
    obtain ⟨hhere, hstart⟩ := forall_mem_cons.mp hstart
    obtain ⟨hcarries, hother, hready⟩ := convergeRole_carries rules pass hrole hhere
    have hne : ∀ next ∈ roles, next.name ≠ role.name := fun next hnext heq =>
      hfresh (mem_map.mpr ⟨next, hnext, heq⟩)
    obtain ⟨hrest, hothers, hreadies⟩ := ih hroles hnodup fun next hnext =>
      (hother _ (hne next hnext)).trans (hstart next hnext)
    simp only [convergeRoles]
    refine ⟨hcarries.append hrest, fun name hname => ?_, forall_mem_cons.mpr ⟨?_, ?_⟩⟩
    · rw [map_cons, mem_cons, not_or] at hname
      exact (hothers name hname.2).trans (hother name hname.1)
    · intro ordinal hordinal
      rw [if_pos rfl] at hordinal
      exact (hready ordinal hordinal).congr (hothers role.name hfresh)
    · intro next hnext ordinal hordinal
      rw [if_neg (hne next hnext)] at hordinal
      exact hreadies next hnext ordinal hordinal

/-- The creates of one role. -/
theorem createReplicas_carries {ordinals : List ℕ} (hrole : role ∈ pass.spec)
    (hready : ∀ ordinal ∈ ordinals, Ready rules pass start role slots ordinal) :
    Carries rules pass start slots (createReplicas role slots ordinals).1
        (createReplicas role slots ordinals).2
      ∧ ∀ name ≠ role.name, (createReplicas role slots ordinals).2.slotFor name = slots.slotFor name := by
  induction ordinals generalizing slots with
  | nil => exact ⟨.nil, fun _ _ => rfl⟩
  | cons ordinal ordinals ih =>
    obtain ⟨⟨hfree, hslot⟩, hreadies⟩ := forall_mem_cons.mp hready
    simp only [createReplicas]
    split
    · next hcleanup =>
      obtain ⟨held, hheld, hphase⟩ := (Option.any_eq_true _ _).mp hcleanup
      simp only [decide_eq_true_eq] at hphase
      obtain ⟨rfl, hphase⟩ := hphase
      generalize hlater : waitingSlot role.name held.ordinal (role.want held.ordinal) = later
      have hname : later.role = role.name := by rw [← hlater]; rfl
      have hadvance : Carries rules pass start slots [.advanceSlot later] (slots.setSlot later) := by
        refine .single (.created hrole hname hheld (by rw [← hlater]; rfl) hfree fun hundeclared => ?_) rfl
        obtain ⟨hfrom, hpos⟩ := hslot held hheld rfl hphase hundeclared
        exact ⟨hfrom, hphase, hpos⟩
      -- once it waits, the slot asks nothing of the remaining ordinals
      have hwaits : ∀ next ∈ ordinals, Ready rules pass start role (slots.setSlot later) next := by
        intro next hnext
        refine ⟨(hreadies next hnext).1, fun slot hstored _ hcleanup => ?_⟩
        rw [← hname, ReplacementSlots.setSlot_slotFor, Option.some.injEq] at hstored
        rw [← hstored, ← hlater] at hcleanup
        cases hcleanup
      obtain ⟨hrest, hothers⟩ := ih hwaits
      refine ⟨(hadvance.append .creates).append hrest, fun name hne => ?_⟩
      exact (hothers name hne).trans (ReplacementSlots.setSlot_slotFor_ne (hname ▸ hne))
    · obtain ⟨hrest, hothers⟩ := ih hreadies
      exact ⟨Carries.creates.append hrest, hothers⟩

/-- The creates of all roles. -/
theorem createRoles_carries {plans : String → RolePlan} {roles : List RoleSpec}
    (hroles : ∀ role ∈ roles, role ∈ pass.spec) (hnodup : (roles.map (·.name)).Nodup)
    (hready : ∀ role ∈ roles, ∀ ordinal ∈ (plans role.name).creates,
      Ready rules pass start role slots ordinal) :
    Carries rules pass start slots (createRoles plans slots roles).1
      (createRoles plans slots roles).2 := by
  induction roles generalizing slots with
  | nil => exact .nil
  | cons role roles ih =>
    obtain ⟨hrole, hroles⟩ := forall_mem_cons.mp hroles
    obtain ⟨hfresh, hnodup⟩ := nodup_cons.mp hnodup
    obtain ⟨hhere, hready⟩ := forall_mem_cons.mp hready
    obtain ⟨hwhole, hothers⟩ := createReplicas_carries hrole hhere
    simp only [createRoles]
    refine (hwhole.append .creates).append (ih hroles hnodup fun next hnext ordinal hordinal => ?_)
    have hne : next.name ≠ role.name := fun heq => hfresh (mem_map.mpr ⟨next, hnext, heq⟩)
    exact (hready next hnext ordinal hordinal).congr (hothers next.name hne)

theorem createRoleOrder_perm (spec : List RoleSpec) : (createRoleOrder spec).Perm spec := by
  have hperm := filter_append_perm (fun role : RoleSpec => !role.encode) spec
  simpa [createRoleOrder] using hperm

/-- The last writes of a pass find the slots it went on with, waiting. -/
theorem along_recordMembers {plans : String → RolePlan} :
    Along ReplacementSlots.perform (Write rules pass start) slots (recordMembers pass plans slots) := by
  -- the slots recorded before keep their ordinal and go on waiting
  let waits (server : ReplacementSlots) : Prop := ∀ name slot, slots.slotFor name = some slot →
    slot.phase = .waitingForAdmission → ∃ stored, server.slotFor name = some stored
      ∧ slot.ordinal = stored.ordinal ∧ stored.phase = .waitingForAdmission
  refine along_of_invariant (I := waits) (fun name slot hslot hphase => ⟨slot, hslot, rfl, hphase⟩) ?_
  intro effect heffect server hwaits
  obtain ⟨name, -, heffect⟩ := mem_filterMap.mp heffect
  obtain ⟨slot, hslot, rfl⟩ := Option.map_eq_some_iff.mp heffect
  obtain ⟨hslot, hphase⟩ := Option.filter_eq_some_iff.mp hslot
  simp only [decide_eq_true_eq] at hphase
  obtain rfl := slots.keyed hslot
  obtain ⟨stored, hstored, hordinal, hwaiting⟩ := hwaits _ _ hslot hphase.1
  refine ⟨.waited hstored hordinal hwaiting, fun other held hheld hheldPhase => ?_⟩
  by_cases hsame : other = slot.role
  · subst hsame
    rw [hslot, Option.some.injEq] at hheld
    subst hheld
    exact ⟨_, ReplacementSlots.setSlot_slotFor, rfl, hphase.1⟩
  · obtain ⟨stored', hstored', hkept⟩ := hwaits other held hheld hheldPhase
    refine ⟨stored', (ReplacementSlots.perform_slotFor_ne ?_).trans hstored', hkept⟩
    exact fun h => hsame (Option.some.inj h).symm

/-- **What a pass that starts from the stored record finds where it writes.** -/
theorem pass_writes (rules : PodRules S) (pass : PassInputs S) (start : ReplacementSlots) :
    Along ReplacementSlots.perform (Write rules pass start) start (passEffects rules pass start) := by
  obtain ⟨hroles, -, hready⟩ := convergeRoles_carries rules pass (fun _ h => h) pass.spec_nodup
    fun role _ => Eq.refl (start.slotFor role.name)
  simp only [passEffects]
  generalize convergeRoles rules pass start pass.spec = converged at *
  generalize hplans : (if pass.weightsBlocked = true then fun _ => {} else converged.2.2) = plans
  have hplanned : ∀ role ∈ createRoleOrder pass.spec, ∀ ordinal ∈ (plans role.name).creates,
      Ready rules pass start role converged.2.1 ordinal := by
    intro role hrole
    subst hplans
    split
    · exact fun _ h => nomatch h
    · exact hready role ((createRoleOrder_perm _).mem_iff.mp hrole)
  have hcreated := createRoles_carries (fun role h => (createRoleOrder_perm _).mem_iff.mp h)
    (((createRoleOrder_perm _).map _).nodup_iff.mpr pass.spec_nodup) hplanned
  have hbefore := ((Carries.departures (departedPods pass)).append hroles).append hcreated
  refine along_append.mpr ⟨hbefore.along, ?_⟩
  rw [hbefore.after]
  exact along_recordMembers

end GpuStack.Rollout
