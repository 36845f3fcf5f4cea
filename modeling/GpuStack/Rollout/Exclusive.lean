import GpuStack.Rollout.Writes

/-!
# Rollout/Exclusive — a role replaces one replica at a time

The slot of a role is its lock: while the server stores one, no other ordinal of the role is replaced,
and the members it names are the only Pods that may be deleted for it (`Exclusive`).  A pass decides from
the slots of the object it was handed, and writes on top of the slots of the server.  Where the two
agree, every write and every delete is exclusive (`exclusive_runs`); a pass handed an older object takes
the role for free, and the slot it begins replaces the one that is stored.
-/

namespace GpuStack.Rollout

open Interrupt Retirement

variable {S : Type} {rules : PodRules S} {pass : PassInputs S} {start server : ReplacementSlots}

/-- **An effect respects the slot that is stored**: the slot stays on its ordinal until it is cleared,
and a member deleted for a slot is one the stored slot names. -/
structure Exclusive (server : ReplacementSlots) (effect : Effect) : Prop where
  ordinal : ∀ name slot later, server.slotFor name = some slot →
    (server.perform effect).slotFor name = some later → later.ordinal = slot.ordinal
  captured : ∀ slot uid, effect = .deleteMember slot uid →
    ∃ stored, server.slotFor slot.role = some stored ∧ uid ∈ stored.memberUIDs

/-- What a pass that starts from the stored record does is exclusive. -/
theorem Write.exclusive {effect : Effect} (h : Write rules pass start server effect) :
    Exclusive server effect where
  ordinal name slot later hslot hlater := by
    obtain ⟨hnone, -⟩ | ⟨later', hlater', hordinal, -⟩ := h.slotFor hslot
    · cases hnone.symm.trans hlater
    · cases hlater.symm.trans hlater'
      exact hordinal
  captured slot uid heq := by
    subst heq
    cases h with
    | plain _ hmember => exact absurd rfl (hmember slot uid)
    | member hstored hcaptured => exact ⟨slot, hstored, hcaptured⟩

/-! ## Runs -/

/-- A pass of a run: the slots of the object it was handed, what it reads, and where it is cut. -/
structure CachedPass (S : Type) where
  cached : ReplacementSlots
  pass : PassInputs S
  cut : ℕ

/-- The effects of the pass that are performed. -/
def CachedPass.effects (rules : PodRules S) (step : CachedPass S) : List Effect :=
  (passEffects rules step.pass step.cached).take step.cut

/-- The record after the pass. -/
def runCachedPass (rules : PodRules S) (server : ReplacementSlots) (step : CachedPass S) :
    ReplacementSlots := (step.effects rules).foldl ReplacementSlots.perform server

/-- Runs whose passes are handed the stored slots. -/
theorem exclusive_runs {steps : List (CachedPass S)}
    (hcurrent : Along (runCachedPass rules) (fun server step => step.cached = server) server steps) :
    Along (runCachedPass rules) (fun server step =>
      Along ReplacementSlots.perform Exclusive server (step.effects rules)) server steps := by
  refine hcurrent.mono fun server step _ hcached => ?_
  have hwrites := pass_writes rules step.pass step.cached
  rw [hcached] at hwrites
  rw [CachedPass.effects, hcached]
  exact (hwrites.take step.cut).mono fun _ _ _ hwrite => hwrite.exclusive

/-! ## A pass that misses the slot -/

/-- The one member left of a replica of two, on an ordinal that is not this one. -/
def lastMember [Inhabited S] (name : String) (ordinal : ℕ) : Member S where
  uid := "left"
  role := name
  ordinalLabel := if ordinal = 0 then "1" else "0"
  memberIndex := some "0"
  groupTotal := some "2"
  spec := default

/-- A pass over that member alone, which a retirement keeps whatever the role declares. -/
def lastMemberPass [Inhabited S] (role : RoleSpec) (ordinal : ℕ) : PassInputs S where
  spec := [role]
  spec_nodup := List.nodup_singleton _
  actual := [lastMember role.name ordinal]
  reads _ := { retirement := { holds := fun _ => true } }

theorem ordinal_lastMember [Inhabited S] (name : String) (ordinal : ℕ) :
    ∃ other, (lastMember name ordinal : Member S).ordinal = some other ∧ other ≠ ordinal := by
  by_cases hzero : ordinal = 0
  · refine ⟨1, ?_, by omega⟩
    simp only [Member.ordinal, podOrdinal, lastMember, hzero, if_true]
    decide
  · refine ⟨0, ?_, by omega⟩
    simp only [Member.ordinal, podOrdinal, lastMember, hzero, if_false]
    decide

theorem isIncomplete_lastMember [Inhabited S] (name : String) (ordinal : ℕ) :
    isIncomplete (replicaShape [(lastMember name ordinal : Member S)]) = true := by
  rfl

/-- The role begins the slot of that member's ordinal. -/
theorem convergeRole_lastMember [Inhabited S] (role : RoleSpec) (ordinal : ℕ)
    (hfree : server.slotFor role.name = none) :
    ∃ slot rest, (convergeRole rules (lastMemberPass role ordinal : PassInputs S) server role).effects
      = .beginSlot slot :: rest ∧ slot.role = role.name ∧ slot.ordinal ≠ ordinal := by
  obtain ⟨other, hother, hne⟩ := ordinal_lastMember (S := S) role.name ordinal
  generalize hhold : ({ holds := fun _ => true } : RetirementHold) = hold
  have hreads : ((lastMemberPass role ordinal : PassInputs S).reads role.name).retirement = hold := hhold
  have hlive : livePods (lastMemberPass role ordinal : PassInputs S) role.name
      = [lastMember role.name ordinal] := by
    simp [livePods, lastMemberPass, lastMember, Member.isTerminal]
  have hmembers : replicaMembers [(lastMember role.name ordinal : Member S)] other
      = [lastMember role.name ordinal] := by
    simp [replicaMembers, hother]
  have hbroken : incompleteAt hold [(lastMember role.name ordinal : Member S)] other = true := by
    simp [incompleteAt, hmembers, isIncomplete_lastMember, ← hhold]
  have hcensus : census role hold (lastMemberPass role ordinal : PassInputs S).minRenderVersion
      [(lastMember role.name ordinal : Member S)] = ⟨[lastMember role.name ordinal], [], [other], 0⟩ := by
    simp [census, keepsPod, surplusCount, Member.seat, hother, ← hhold]
  have houtdated : outdatedPods role hold (lastMemberPass role ordinal : PassInputs S)
      ⟨[lastMember role.name ordinal], [], [other], 0⟩ = [lastMember role.name ordinal] := by
    simp [outdatedPods, lastMemberPass, outdatedAt, hbroken, hmembers, hother]
  have hturn : roleTurnOver (lastMemberPass role ordinal : PassInputs S) role false
      = some (lastMember role.name ordinal, [lastMember role.name ordinal]) := by
    simp only [roleTurnOver, hlive, hreads, hcensus, houtdated]
    simp [turnOverPick, hother, hbroken, turnOver, highestOrdinalReplica, hmembers]
  generalize hslot : replacementCapturedIdentities role.name other
    [(lastMember role.name ordinal : Member S)] (lastMemberPass role ordinal).workloads = slot
  have heffects : (convergeRole rules (lastMemberPass role ordinal : PassInputs S) server role).effects
      = .beginSlot slot :: cleanReplacementSlot slot [(lastMember role.name ordinal : Member S)] [] := by
    simp only [convergeRole, resolveRole, hfree, hlive, hreads, hcensus, departureEffects,
      List.insertionSort_nil, List.isEmpty_nil, if_true, List.nil_append, Option.isSome_none, hturn,
      turnOverEffects, hother, Option.filter_none, hslot]
    rfl
  exact ⟨slot, _, heffects, by rw [← hslot]; rfl, by rw [← hslot]; exact hne⟩

/-- **A pass handed the record without a role's slot** breaks in on the slot that is stored. -/
theorem not_exclusive_lastMember [Inhabited S] {role : RoleSpec} {slot : ReplacementSlot}
    (hslot : server.slotFor role.name = some slot) :
    ¬Along ReplacementSlots.perform Exclusive server (passEffects rules
      (lastMemberPass role slot.ordinal : PassInputs S) (server.clearRole role.name)) := by
  have hconverged : ∃ begun rest, (convergeRole rules (lastMemberPass role slot.ordinal : PassInputs S)
      (server.clearRole role.name) role).effects = .beginSlot begun :: rest
      ∧ begun.role = role.name ∧ begun.ordinal ≠ slot.ordinal :=
    convergeRole_lastMember role slot.ordinal ReplacementSlots.clearRole_slotFor
  obtain ⟨begun, rest, heffects, hname, hne⟩ := hconverged
  have hdeparted : departedPods (lastMemberPass role slot.ordinal : PassInputs S) = [] := by
    simp [departedPods, lastMemberPass, lastMember, Member.isTerminal]
  have hspec : (lastMemberPass role slot.ordinal : PassInputs S).spec = [role] := rfl
  simp only [passEffects, hdeparted, hspec, convergeRoles, heffects, departureEffects, List.isEmpty_nil,
    if_true, List.nil_append, List.cons_append]
  rintro ⟨hbegin, -⟩
  refine hne (hbegin.ordinal role.name slot begun hslot ?_)
  have hother : ((server.slotFor begun.role).any fun held => held.ordinal = begun.ordinal) = false := by
    simp [hname, hslot, Ne.symm hne]
  simp only [ReplacementSlots.perform, hother, Bool.false_eq_true, if_false]
  rw [← hname, ReplacementSlots.setSlot_slotFor]

/-- **A role replaces one replica at a time where its passes are handed the slot that is stored.**  Runs
of such passes are exclusive, wherever they are cut; and for a pass handed the record without the slot of
its role this holds, whatever it reads, only if there is no such slot. -/
theorem exclusive_iff [Inhabited S] (rules : PodRules S) :
    (∀ (server : ReplacementSlots) (steps : List (CachedPass S)),
      Along (runCachedPass rules) (fun server step => step.cached = server) server steps →
      Along (runCachedPass rules) (fun server step =>
        Along ReplacementSlots.perform Exclusive server (step.effects rules)) server steps) ∧
    ∀ (role : RoleSpec) (server : ReplacementSlots),
      (∀ pass : PassInputs S, pass.spec = [role] → Along ReplacementSlots.perform Exclusive server
        (passEffects rules pass (server.clearRole role.name))) ↔ server.slotFor role.name = none := by
  refine ⟨fun server steps => exclusive_runs, fun role server => ⟨fun hexclusive => ?_, ?_⟩⟩
  · by_contra hsome
    obtain ⟨slot, hslot⟩ := Option.ne_none_iff_exists'.mp hsome
    exact not_exclusive_lastMember hslot (hexclusive (lastMemberPass role slot.ordinal) rfl)
  · intro hnone pass _
    have hclear : server.clearRole role.name = server := by
      refine ReplacementSlots.ext fun name => ?_
      by_cases hname : name = role.name
      · rw [hname, hnone, ReplacementSlots.clearRole_slotFor]
      · exact ReplacementSlots.clearRole_slotFor_ne hname
    rw [hclear]
    exact (pass_writes rules pass server).mono fun _ _ _ hwrite => hwrite.exclusive

/-! ## An older object -/

namespace Decode

/-- A member of a replica of two. -/
def half (ordinal index : ℕ) : Member Unit :=
  { pod "first" ordinal with
    uid := "pod" ++ toString ordinal ++ "-" ++ toString index
    name := "decode-" ++ toString ordinal ++ "-" ++ toString index
    memberIndex := some (toString index)
    groupTotal := some "2" }

/-- The Workload of a replica of two. -/
def wholeWorkload (ordinal : ℕ) : Workload Unit :=
  { workload .yes ordinal with
    owners := ["pod" ++ toString ordinal ++ "-0", "pod" ++ toString ordinal ++ "-1"] }

/-- Two replicas of two members, admitted and outdated. -/
def wholePair : PassInputs Unit :=
  { outdatedPair with
    actual := [half 0 0, half 0 1, half 1 0, half 1 1]
    workloads := [wholeWorkload 0, wholeWorkload 1]
    reads := fun _ => {} }

/-- The lower replica has lost a member. -/
def brokenPair : PassInputs Unit := { wholePair with actual := [half 0 0, half 1 0, half 1 1] }

/-- The slot of an ordinal of the pair. -/
def wholeSlot (ordinal : ℕ) (members : List String) : ReplacementSlot where
  role := "decode"
  ordinal := ordinal
  phase := .cleanup
  memberUIDs := members
  workloadUID := "workload" ++ toString ordinal

end Decode

open Decode in
/-- A pass begins the slot of replica 1 and dies.  Replica 0 loses a member, and the next pass is handed
an object without the slot: it begins that of replica 0 over the one that is stored. -/
theorem stored_slot_overwritten :
    (runCachedPass groupRules .empty ⟨.empty, wholePair, 1⟩).slotFor "decode"
        = some (wholeSlot 1 ["pod1-0", "pod1-1"])
      ∧ passEffects groupRules brokenPair .empty
        = [.beginSlot (wholeSlot 0 ["pod0-0"]), .deleteMember (wholeSlot 0 ["pod0-0"]) "pod0-0"]
      ∧ ¬Along (runCachedPass groupRules) (fun server step =>
        Along ReplacementSlots.perform Exclusive server (step.effects groupRules)) .empty
        [⟨.empty, wholePair, 1⟩, ⟨.empty, brokenPair, 2⟩] := by
  have hslot : (runCachedPass groupRules .empty ⟨.empty, wholePair, 1⟩).slotFor "decode"
      = some (wholeSlot 1 ["pod1-0", "pod1-1"]) := by decide +kernel
  have heffects : passEffects groupRules brokenPair .empty
      = [.beginSlot (wholeSlot 0 ["pod0-0"]), .deleteMember (wholeSlot 0 ["pod0-0"]) "pod0-0"] := by
    decide +kernel
  refine ⟨hslot, heffects, ?_⟩
  rintro ⟨-, hsecond, -⟩
  rw [CachedPass.effects, heffects] at hsecond
  have hbegun : ((runCachedPass groupRules .empty ⟨.empty, wholePair, 1⟩).perform
      (.beginSlot (wholeSlot 0 ["pod0-0"]))).slotFor "decode" = some (wholeSlot 0 ["pod0-0"]) := by
    decide +kernel
  exact absurd (hsecond.1.ordinal "decode" _ _ hslot hbegun) (by decide)

end GpuStack.Rollout
