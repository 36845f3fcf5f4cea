import GpuStack.Rollout.Replica

/-!
# Rollout/Slot — the replacement of one replica

A role replaces one replica at a time, and between the delete of the old members and the creation of
the new ones its ordinal is empty: what is being replaced is then known only from the record on the
deployment, the **replacement slot**.  A slot starts in cleanup, naming the members it may delete, and
goes on to wait for the admission of the members that took their place.

A pass writes the record and deletes Pods one after another.  It is modelled by the list of these
effects; a failed write, a failed read and a crash all leave the first few of them done.

`resolveReplacementSlot` moves a slot by one step.  Its two questions to the server have one answer
each that lets the slot go on: `Vacant` and `Admitted`.
-/

namespace GpuStack.Rollout

open Retirement

/-! ## The record -/

inductive ReplacementPhase
  | cleanup
  | waitingForAdmission
deriving DecidableEq

/-- One role's replacement.  `memberUIDs` and `workloadUID` are what the slot may delete, `memberHashes`
the render its replacement is built from, and the current ones what was seen of that replacement. -/
structure ReplacementSlot where
  role : String
  ordinal : ℕ
  phase : ReplacementPhase
  memberUIDs : List String := []
  workloadUID : String := ""
  memberHashes : List String := []
  currentMemberUIDs : List String := []
  currentWorkloadUID : String := ""
deriving DecidableEq

/-- Every role's slot, under its role's name. -/
structure ReplacementSlots where
  slotFor : String → Option ReplacementSlot
  keyed : ∀ {role : String} {slot : ReplacementSlot}, slotFor role = some slot → slot.role = role

namespace ReplacementSlots

@[ext] theorem ext {slots slots' : ReplacementSlots}
    (h : ∀ role, slots.slotFor role = slots'.slotFor role) : slots = slots' := by
  cases slots
  cases slots'
  congr
  exact funext h

def empty : ReplacementSlots := ⟨fun _ => none, fun h => by cases h⟩

/-- The slots with one role's slot written. -/
def setSlot (slots : ReplacementSlots) (slot : ReplacementSlot) : ReplacementSlots where
  slotFor role := if role = slot.role then some slot else slots.slotFor role
  keyed := by
    intro role held h
    split at h
    · cases h
      exact (‹role = slot.role›).symm
    · exact slots.keyed h

/-- The slots with one role's slot removed. -/
def clearRole (slots : ReplacementSlots) (role : String) : ReplacementSlots where
  slotFor name := if name = role then none else slots.slotFor name
  keyed := by
    intro name held h
    split at h
    · cases h
    · exact slots.keyed h

variable {slots : ReplacementSlots} {slot : ReplacementSlot} {role role' : String}

@[simp] theorem setSlot_slotFor : (slots.setSlot slot).slotFor slot.role = some slot := if_pos rfl

theorem setSlot_slotFor_ne (h : role ≠ slot.role) :
    (slots.setSlot slot).slotFor role = slots.slotFor role := if_neg h

@[simp] theorem clearRole_slotFor : (slots.clearRole role).slotFor role = none := if_pos rfl

theorem clearRole_slotFor_ne (h : role' ≠ role) :
    (slots.clearRole role).slotFor role' = slots.slotFor role' := if_neg h

theorem setSlot_eq_self (h : slots.slotFor slot.role = some slot) : slots.setSlot slot = slots := by
  refine ext fun name => ?_
  by_cases hname : name = slot.role
  · rw [hname, setSlot_slotFor, h]
  · exact setSlot_slotFor_ne hname

theorem setSlot_setSlot {later : ReplacementSlot} (h : later.role = slot.role) :
    (slots.setSlot slot).setSlot later = slots.setSlot later := by
  refine ext fun name => ?_
  by_cases hname : name = later.role
  · rw [hname, setSlot_slotFor, setSlot_slotFor]
  · rw [setSlot_slotFor_ne hname, setSlot_slotFor_ne hname, setSlot_slotFor_ne (h ▸ hname)]

theorem clearRole_setSlot (h : slot.role = role) :
    (slots.setSlot slot).clearRole role = slots.clearRole role := by
  refine ext fun name => ?_
  by_cases hname : name = role
  · rw [hname, clearRole_slotFor, clearRole_slotFor]
  · rw [clearRole_slotFor_ne hname, clearRole_slotFor_ne hname, setSlot_slotFor_ne (h ▸ hname)]

end ReplacementSlots

/-! ## What a pass writes -/

/-- One write of a pass.  The deletes of a cleanup carry the slot they are made for. -/
inductive Effect
  | beginSlot (slot : ReplacementSlot)
  | advanceSlot (slot : ReplacementSlot)
  | endSlot (role : String)
  | deleteMember (slot : ReplacementSlot) (uid : String)
  | deleteWorkload (slot : ReplacementSlot) (uid : String)
  | deletePod (uid : String)
  | deleteGroupWorkloads (uids : List String)
  | create (role : String) (ordinal : ℕ) (member : Rendered)
deriving DecidableEq

/-- The role whose record an effect writes. -/
def Effect.writes : Effect → Option String
  | .beginSlot slot | .advanceSlot slot => some slot.role
  | .endSlot role => some role
  | _ => none

/-- The record on the server after an effect.  Each write is made on top of the record as the server
holds it; a slot that is there already is not begun again. -/
def ReplacementSlots.perform (server : ReplacementSlots) : Effect → ReplacementSlots
  | .beginSlot slot =>
    if (server.slotFor slot.role).any fun held => held.ordinal = slot.ordinal then server
    else server.setSlot slot
  | .advanceSlot slot => server.setSlot slot
  | .endSlot role => server.clearRole role
  | _ => server

variable {effect : Effect}

/-- **Frame**: an effect leaves the slots of the other roles. -/
theorem ReplacementSlots.perform_slotFor_ne {server : ReplacementSlots}
    {role : String} (h : effect.writes ≠ some role) :
    (server.perform effect).slotFor role = server.slotFor role := by
  cases effect with
  | beginSlot slot =>
    have hne : role ≠ slot.role := fun heq => h (congrArg some heq.symm)
    simp only [perform]
    split
    · rfl
    · exact setSlot_slotFor_ne hne
  | advanceSlot slot => exact setSlot_slotFor_ne fun heq => h (congrArg some heq.symm)
  | endSlot name => exact clearRole_slotFor_ne fun heq => h (congrArg some heq.symm)
  | deleteMember => rfl
  | deleteWorkload => rfl
  | deletePod => rfl
  | deleteGroupWorkloads => rfl
  | create => rfl

theorem ReplacementSlots.perform_of_writes_eq_none {server : ReplacementSlots}
    (h : effect.writes = none) : server.perform effect = server := by
  refine ext fun role => perform_slotFor_ne ?_
  rw [h]
  exact Option.some_ne_none role |>.symm

variable {S : Type}

/-! ## Cleanup -/

/-- UIDs as a set lists them. -/
def uidList (uids : List String) : List String := uids.dedup.insertionSort (· ≤ ·)

/-- The captured members among these, in the order of their names. -/
def replacementMemberDeletes (slot : ReplacementSlot) (members : List (Member S)) :
    List (Member S) :=
  (members.filter fun member => member.uid ∈ slot.memberUIDs).insertionSort fun a b => a.name ≤ b.name

def replacementStandingMemberDeletes (slot : ReplacementSlot) (members : List (Member S)) :
    List (Member S) :=
  (replacementMemberDeletes slot members).filter fun member => !member.deleting

/-- The Workload the slot captured, and those that name a captured member as an owner. -/
def replacementWorkloadDeletes (slot : ReplacementSlot) (workloads : List (Workload S)) :
    List (Workload S) :=
  workloads.filter fun wl =>
    (slot.workloadUID ≠ "" ∧ slot.workloadUID = wl.uid) ∨ wl.ownsAny slot.memberUIDs

/-- Remove what a slot captured: its members, then the Workloads that hold them. -/
def cleanReplacementSlot (slot : ReplacementSlot) (members : List (Member S))
    (listed : List (Workload S)) : List Effect :=
  (replacementMemberDeletes slot members).map (fun member => .deleteMember slot member.uid)
    ++ (replacementWorkloadDeletes slot listed).map fun wl => .deleteWorkload slot wl.uid

theorem mem_replacementMemberDeletes {slot : ReplacementSlot} {members : List (Member S)}
    {member : Member S} : member ∈ replacementMemberDeletes slot members
      ↔ member ∈ members ∧ member.uid ∈ slot.memberUIDs := by
  rw [replacementMemberDeletes, (List.perm_insertionSort _ _).mem_iff, List.mem_filter,
    decide_eq_true_eq]

/-- A cleanup deletes what its slot captured and nothing else. -/
theorem mem_cleanReplacementSlot {slot : ReplacementSlot} {members : List (Member S)}
    {listed : List (Workload S)}
    (h : effect ∈ cleanReplacementSlot slot members listed) :
    (∃ uid ∈ slot.memberUIDs, effect = .deleteMember slot uid)
      ∨ ∃ uid, effect = .deleteWorkload slot uid := by
  rcases List.mem_append.mp h with h | h
  · obtain ⟨member, hmember, rfl⟩ := List.mem_map.mp h
    exact .inl ⟨member.uid, (mem_replacementMemberDeletes.mp hmember).2, rfl⟩
  · obtain ⟨wl, -, rfl⟩ := List.mem_map.mp h
    exact .inr ⟨wl.uid, rfl⟩

end GpuStack.Rollout
