import GpuStack.Lib.Debounce
import GpuStack.Lib.Records

/-!
# Cambricon/Reclaim — the Cambricon reclaim loop

An sMLU instance is recorded by a marker in its container's work directory, and its name carries the
Pod's UID.  A pass lists the instances, reads the markers and collects per Pod the instances its markers
name and the unmarked ones whose name carries it; what belongs to a Pod missed `reclaimMaxMisses` times
in a row is destroyed.  An instance whose name is not the operator's is never touched.

`due_of_mem_destroyed` says of whom a pass destroys instances, and `loop` fits the loop to the rules of
`Lib/Debounce`.
-/

namespace GpuStack.Cambricon

def reclaimMaxMisses : ℕ := 3

def smluInstancePrefix : String := "gpustack"

def smluNameSep : String := ":"

/-- An instance of the driver's listing. -/
structure SmluInstance where
  card : String
  name : String
deriving DecidableEq, Repr

/-- An instance by card and name. -/
structure SmluRef where
  card : String
  name : String
deriving DecidableEq, Repr

/-- The Pod an instance's name carries; none for a name that is not the operator's. -/
def decodeInstanceUID (name : String) : Option String :=
  match (name.toList.splitOn ':').map String.ofList with
  | [tag, uid, _] => if tag ≠ smluInstancePrefix ∨ uid = "" then none else some uid
  | _ => none

/-- A marker's record. -/
structure SmluMarker where
  podUID : String
  container : String
  card : String
  inst : String
  profileID : ℤ
  coresPct : ℤ
  memMiB : ℤ
deriving DecidableEq, Repr

abbrev MarkerEntry := Records.Entry String SmluMarker

def SmluMarker.complete (m : SmluMarker) : Bool :=
  m.podUID != "" && m.card != "" && m.inst != ""

/-- The markers that can be read, of the files found; the others are only logged. -/
def scanMarkers (files : List (String × Option SmluMarker)) : List MarkerEntry :=
  Records.scan (fun _ m => m.complete) files

/-- One call of the loop: what it is given, what it finds and what the driver and the disk answer. -/
structure ReclaimCall where
  livePodUIDs : List String
  instances : Except String (List SmluInstance)
  files : List (String × Option SmluMarker)
  destroyFails : SmluRef → Bool
  unlinkFails : String → Bool

namespace ReclaimCall

variable (c : ReclaimCall)

def markers : List MarkerEntry := scanMarkers c.files

/-- The instances listed, none when the listing fails. -/
def listed : List SmluInstance := c.instances.toOption.getD []

/-- The markers of a Pod. -/
def markersOf (uid : String) : List MarkerEntry := c.markers.filter fun e => e.marker.podUID == uid

/-- The unmarked instances whose name carries a Pod. -/
def carrying (uid : String) : List SmluInstance :=
  c.listed.filter fun i => !(c.markers.any fun e => e.marker.inst == i.name) &&
    decodeInstanceUID i.name == some uid

/-- The instances to destroy for a Pod. -/
def targets (uid : String) : List SmluRef :=
  (c.markersOf uid).map (fun e => ⟨e.marker.card, e.marker.inst⟩) ++
    (c.carrying uid).map fun i => ⟨i.card, i.name⟩

def touched (uid : String) : Bool := !(c.targets uid).isEmpty

def live (uid : String) : Bool := c.livePodUIDs.contains uid

variable (misses : String → ℕ)

/-- The Pods the call reclaims. -/
def due (uid : String) : Bool := Debounce.ripe reclaimMaxMisses c.touched c.live misses uid

/-- A Pod is done when every removal for it succeeded. -/
def done (uid : String) : Bool :=
  c.due misses uid && (c.targets uid).all (fun ref => !c.destroyFails ref) &&
    (c.markersOf uid).all fun e => !c.unlinkFails e.path

/-- The counters the call leaves; a listing that fails leaves them as they were. -/
def counted : String → ℕ :=
  match c.instances with
  | .error _ => misses
  | .ok _ => Debounce.settle (c.done misses) (Debounce.tally c.touched c.live misses)

/-- Every Pod the call may meet. -/
def pods : List String :=
  c.markers.map (fun e => e.marker.podUID) ++ c.listed.filterMap fun i => decodeInstanceUID i.name

/-- **The instances the call destroys**, each with the Pod it is recorded for. -/
def destroyed : List (String × SmluRef) :=
  match c.instances with
  | .error _ => []
  | .ok _ => (c.pods.filter (c.due misses)).flatMap fun uid =>
      ((c.targets uid).filter fun ref => !c.destroyFails ref).map (Prod.mk uid)

theorem due_of_mem_destroyed {uid : String} {ref : SmluRef}
    (h : (uid, ref) ∈ c.destroyed misses) : c.due misses uid = true := by
  unfold destroyed at h
  split at h
  · cases h
  · obtain ⟨uid', huid', href⟩ := List.mem_flatMap.mp h
    obtain ⟨ref', -, hpair⟩ := List.mem_map.mp href
    obtain ⟨rfl, -⟩ := Prod.mk.inj hpair
    exact (List.mem_filter.mp huid').2

theorem due_iff {uid : String} :
    c.due misses uid = true ↔ c.touched uid = true ∧ c.live uid = false ∧ 2 ≤ misses uid := by
  simp [due, Debounce.ripe, reclaimMaxMisses, and_assoc]

/-- The loop's counters, as those of a debounced loop. -/
def loop : Debounce.Loop String ReclaimCall where
  pass c := ⟨c.instances.isOk, c.live⟩
  next misses c := c.counted misses
  next_le misses c uid := by
    unfold counted
    cases hlist : c.instances with
    | error err => simp [Debounce.Pass.ceiling, Except.isOk, Except.toBool]
    | ok instances => exact Debounce.settle_tally_le misses uid

end ReclaimCall

end GpuStack.Cambricon
