import GpuStack.Rollout.Pass

/-!
# Rollout/Capacity — a rollout spends admitted capacity one replica at a time

A rollout deletes an admitted replica only while every replica the role declares is admitted.  The guard
counts: the admitted Workloads that own a live Pod of the role, against the declared replicas.  The count
is the property where each such Workload has a declared ordinal to itself (`OneEach`); a replica past the
declared ones, kept by a retirement and still admitted, makes up for a declared one that is not.
-/

namespace GpuStack.Rollout

open List

open Retirement

variable {S : Type} {rules : PodRules S} {pass : PassInputs S} {slots : ReplacementSlots}
  {role : RoleSpec}

/-- The effect begins a slot of this role. -/
def Effect.begins (name : String) : Effect → Bool
  | .beginSlot slot => slot.role = name
  | _ => false

variable {name : String} {begun slot : ReplacementSlot} {roles : List RoleSpec}

namespace Decode

end Decode

end GpuStack.Rollout
